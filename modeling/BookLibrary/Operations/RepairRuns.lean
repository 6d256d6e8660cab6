import BookLibrary.Operations.Preparation

/-!
# The runs of a repair

Calls of `apply` for one repair, one after another, each of which may stop anywhere: all of
them keep what `RepairPlan.Progress` says, and the one that completes the repair has found
every item in an activated batch.
-/

namespace Operations

open AuthIdentifiers Documents Interleaving

open AuthIdentifierRepairAuthorizationService (authorize)

open AuthIdentifierRepairService

namespace RepairPlan

variable {p : RepairPlan}

section Operation

variable {v : Database} {preparing : Option ℕ}

theorem Progress.updateOperation (h : p.Progress preparing v) {u : OperationUpdate}
    (hu : ∀ d, u.selects d = true → d.status ≠ .completed ∧ (u.apply d).requestedBy = d.requestedBy ∧
      (u.apply d).status ∉ [.compensating, .completed, .failedTerminal]) :
    p.Progress preparing (schema.wrote (.updateOperation u) v) := by
  by_cases hw : schema.write (.updateOperation u) v = .duplicateKey
  · rw [wrote_of_duplicateKey hw]
    exact h
  · have hindexed := wrote_indexed h.indexed (.updateOperation u)
    rcases wrote_update rfl hw with ⟨d, hd, hsel, -, hwrote⟩ | ⟨-, -, hwrote⟩
    · rw [hwrote] at hindexed ⊢
      obtain ⟨hold, hrequested, hnew⟩ := hu d hsel
      exact h.put_operation hd hindexed (u.apply_id d) (u.apply_operationId d) hrequested hold hnew
    · rw [hwrote]
      exact h

theorem Progress.recordEvent (h : p.Progress preparing v) (e : SecurityActivityEvent) :
    p.Progress preparing (schema.wrote (.recordEvent e) v) := by
  have hindexed := wrote_indexed h.indexed (.recordEvent e)
  rcases wrote_event e v with heq | ⟨e', heq⟩
  · rw [heq]
    exact h
  · rw [heq] at hindexed ⊢
    exact h.put_event hindexed

theorem batches_updateOperation (u : OperationUpdate) (v : Database) :
    (schema.wrote (.updateOperation u) v).batches = v.batches := by
  by_cases hw : schema.write (.updateOperation u) v = .duplicateKey
  · rw [wrote_of_duplicateKey hw]
  · rcases wrote_update rfl hw with ⟨d, -, -, -, hwrote⟩ | ⟨-, -, hwrote⟩
    · rw [hwrote]
      rfl
    · rw [hwrote]

/-- A move of the parent from one of the open statuses to another. -/
theorem Progress.moveStatus (h : p.Progress preparing v)
    {sources : List AuthIdentifierOperationStatus} {target : AuthIdentifierOperationStatus}
    (hsources : .completed ∉ sources) (htarget : target ∉ [.compensating, .completed, .failedTerminal]) :
    p.Progress preparing
      (schema.wrote (.updateOperation (.moveStatus p.operationId sources target)) v) := by
  refine h.updateOperation fun d hd => ⟨fun heq => hsources ?_, rfl, htarget⟩
  simp only [OperationUpdate.selects, Bool.and_eq_true, decide_eq_true_eq] at hd
  exact heq ▸ hd.2

end Operation

section Coverage

/-- Every chunk whose batch is stored has its items in batches that are activated or will be. -/
def Covers (p : RepairPlan) (v : Database) (n : ℕ) : Prop :=
  ∀ c ∈ (p.items.toChunks n).zipIdx, p.HasBatch v c.2 →
    ∀ x ∈ c.1, p.Covered (p.items.toChunks n).length v x

variable {v v' : Database} {k n : ℕ} {xs : List Reassignment} {x : Reassignment}

theorem Driven.congr (h : v'.operations = v.operations) : p.Driven v' ↔ p.Driven v := by
  rw [Driven, Driven]
  simp only [IsParent, h]

theorem Prepares.covered (h : Prepares p v k xs v') (hx : p.Covered n v x) : p.Covered n v' x := by
  obtain ⟨b, hb, hbelongs, hstatus⟩ := hx
  exact ⟨b, h.old b hb, hbelongs, hstatus⟩

theorem Raises.hasBatch (h : Raises p v v') (hk : p.HasBatch v k) : p.HasBatch v' k := by
  obtain ⟨b, hb, hnumber⟩ := hk
  obtain ⟨b', hb', hnumber', -⟩ := h.batches b hb
  exact ⟨b', hb', hnumber'.trans hnumber⟩

theorem Raises.covered (h : Raises p v v') (hx : p.Covered n v x) : p.Covered n v' x := by
  obtain ⟨b, hb, ⟨a, ha, hsubject⟩, hstatus⟩ := hx
  obtain ⟨b', hb', hnumber, hassignments, hactivated⟩ := h.batches b hb
  refine ⟨b', hb', ⟨a, hassignments ▸ ha, hsubject⟩, ?_⟩
  rw [hnumber]
  exact hstatus.imp_left hactivated

/-- The chunks `rest` are still to be prepared. -/
structure Preparing (p : RepairPlan) (n : ℕ) (rest : List (List Reassignment × ℕ)) (v : Database) :
    Prop where
  progress : p.Progress none v
  driven : p.Driven v
  numbers : (rest.map (·.2)).Nodup
  chunks : ∀ c ∈ rest, c ∈ (p.items.toChunks n).zipIdx
  todo : ∀ c ∈ rest, p.HasBatch v c.2 → ∀ x ∈ c.1, p.Covered (p.items.toChunks n).length v x
  ready : ∀ c ∈ (p.items.toChunks n).zipIdx, c ∈ rest ∨
    p.HasBatch v c.2 ∧ ∀ x ∈ c.1, p.Covered (p.items.toChunks n).length v x

theorem Preparing.next {rest : List (List Reassignment × ℕ)}
    (h : Preparing p n ((xs, k) :: rest) v) (hprepares : Prepares p v k xs v') :
    Preparing p n rest v' := by
  have hnumbers := h.numbers
  rw [List.map_cons, List.nodup_cons] at hnumbers
  have hk : k < (p.items.toChunks n).length := by
    have hmem := h.chunks _ List.mem_cons_self
    rw [List.mk_mem_zipIdx_iff_getElem?] at hmem
    exact (List.getElem?_eq_some_iff.mp hmem).1
  have hcovered : ∀ x ∈ xs, p.Covered (p.items.toChunks n).length v' x := by
    intro x hx
    rcases hprepares.batch with hstored | ⟨b, hb, hnumber, hbelongs⟩
    · exact hprepares.covered (h.todo _ List.mem_cons_self hstored x hx)
    · exact ⟨b, hb, hbelongs x hx, .inr (hnumber ▸ hk)⟩
  refine ⟨hprepares.progress, (Driven.congr hprepares.operations).mpr h.driven, hnumbers.2,
    fun c hc => h.chunks c (List.mem_cons_of_mem _ hc), fun c hc hstored x hx => ?_, fun c hc => ?_⟩
  · -- its number is another one
    obtain ⟨b, hb, hnumber⟩ := hstored
    have hne : b.batchNumber ≠ k := by
      rintro rfl
      exact hnumbers.1 (List.mem_map.mpr ⟨c, hc, hnumber.symm⟩)
    have hold := h.todo c (List.mem_cons_of_mem _ hc) ⟨b, hprepares.new b hb hne, hnumber⟩ x hx
    exact hprepares.covered hold
  · rcases h.ready c hc with hrest | ⟨⟨b, hb, hnumber⟩, hitems⟩
    · rcases List.mem_cons.mp hrest with rfl | hrest
      · exact .inr ⟨hprepares.stored, hcovered⟩
      · exact .inl hrest
    · exact .inr ⟨⟨b, hprepares.old b hb, hnumber⟩, fun x hx => hprepares.covered (hitems x hx)⟩

/-- The batches `rest` are still to be activated. -/
structure Activating (p : RepairPlan) (n : ℕ) (rest : List ℕ) (v : Database) : Prop where
  progress : p.Progress none v
  driven : p.Driven v
  stored : ∀ k < n, p.HasBatch v k
  covered : ∀ x ∈ p.items, p.Covered n v x
  ready : ∀ k < n, k ∈ rest ∨ ∀ b ∈ p.batches v, b.batchNumber = k → b.status = .activated

theorem Preparing.activating (h : Preparing p n [] v) :
    Activating p (p.items.toChunks n).length (List.range (p.items.toChunks n).length) v := by
  have hready : ∀ c ∈ (p.items.toChunks n).zipIdx,
      p.HasBatch v c.2 ∧ ∀ x ∈ c.1, p.Covered (p.items.toChunks n).length v x :=
    fun c hc => (h.ready c hc).resolve_left List.not_mem_nil
  refine ⟨h.progress, h.driven, fun k hk => ?_, fun x hx => ?_, fun k hk => .inl (List.mem_range.mpr hk)⟩
  · have hmem : ((p.items.toChunks n)[k], k) ∈ (p.items.toChunks n).zipIdx := by
      rw [List.mk_mem_zipIdx_iff_getElem?]
      exact List.getElem?_eq_getElem hk
    exact (hready _ hmem).1
  · rw [← flatten_toChunks n p.items, List.mem_flatten] at hx
    obtain ⟨xs, hxs, hx⟩ := hx
    obtain ⟨k, hk⟩ := List.mem_iff_getElem?.mp hxs
    exact (hready (xs, k) (List.mk_mem_zipIdx_iff_getElem?.mpr hk)).2 x hx

theorem Activating.next {rest : List ℕ} (h : Activating p n (k :: rest) v) (hraises : Raises p v v')
    (hk : ∀ b ∈ p.batches v', b.batchNumber = k → b.status = .activated) :
    Activating p n rest v' := by
  refine ⟨hraises.progress, (Driven.congr hraises.operations).mpr h.driven,
    fun i hi => hraises.hasBatch (h.stored i hi), fun x hx => hraises.covered (h.covered x hx),
    fun i hi => ?_⟩
  rcases h.ready i hi with hrest | hactivated
  · rcases List.mem_cons.mp hrest with rfl | hrest
    · exact .inr hk
    · exact .inl hrest
  · right
    intro b' hb' hnumber'
    obtain ⟨b, hb, hnumber⟩ := h.stored i hi
    obtain ⟨b₁, hb₁, hnumber₁, -, hstatus⟩ := hraises.batches b hb
    rw [unique_batch hraises.progress.indexed hb' hb₁
      (hnumber'.trans (hnumber₁.trans hnumber).symm)]
    exact hstatus (hactivated b hb hnumber)

/-- Every item is in a batch that is activated. -/
def AllActivated (p : RepairPlan) (v : Database) : Prop :=
  ∀ x ∈ p.items, ∃ b ∈ p.batches v, b.status = .activated ∧ Belongs b x

theorem Activating.allActivated (h : Activating p n [] v) : p.AllActivated v := by
  intro x hx
  obtain ⟨b, hb, hbelongs, hstatus | hnumber⟩ := h.covered x hx
  · exact ⟨b, hb, hstatus, hbelongs⟩
  · exact ⟨b, hb, (h.ready _ hnumber).resolve_left List.not_mem_nil b hb rfl, hbelongs⟩

end Coverage

section Apply

variable {base v : Database} {α : Type} {Q : α → Database → Prop} {env : Environment}
  {token : String} {n : ℕ}

/-- The loop that prepares the batches. -/
theorem prepareBatches_yields (hp : p.Distinct) {operation : AuthIdentifierOperation}
    {conflict : AuthIdentifier} {count : ℕ} (hoperationId : operation.operationId = p.operationId)
    (hactor : operation.requestedBy.subjectId = p.actorId) (hsize : ∀ m ∈ p.size, m = n)
    (h : p.Progress none v) (hdriven : p.Driven v) (hcovers : p.Covers v n) :
    Yields (p.Progress none) none base
      ((p.items.toChunks n).zipIdx.forM fun (reassignments, index) => do
        let _ ← authorize env token
        prepareBatch env operation conflict reassignments index count) v
      fun _ v' => Preparing p n [] v' := by
  refine .forM (P := Preparing p n) ?_ ⟨h, hdriven, ?_, fun _ hc => hc, hcovers, fun _ hc => .inl hc⟩
  · rintro ⟨xs, k⟩ rest v' hpreparing
    have hchunk : (p.items.toChunks n)[k]? = some xs := by
      rw [← List.mk_mem_zipIdx_iff_getElem?]
      exact hpreparing.chunks _ List.mem_cons_self
    have hxs : xs.Sublist p.items := by
      have hmem := List.sublist_flatten_of_mem (List.mem_of_getElem? hchunk)
      rw [flatten_toChunks] at hmem
      exact hmem
    refine authorize_then fun _ => .mono (prepareBatch_yields hp hoperationId hactor hxs
      (fun m hm => ?_) hpreparing.progress (hpreparing.driven.open hpreparing.progress.indexed))
      fun _ v'' hprepares => hpreparing.next hprepares
    rw [hsize m hm]
    exact hchunk
  · rw [List.zipIdx_map_snd]
    exact List.nodup_range'

/-- The loop that activates the batches. -/
theorem activateBatches_yields (hp : p.Distinct) (h : Activating p n (List.range n) v) :
    Yields (p.Progress none) none base
      ((List.range n).forM fun index => do
        let _ ← authorize env token
        activateBatch p.operationId index) v fun _ v' => Activating p n [] v' := by
  refine .forM (P := Activating p n) ?_ h
  intro k rest v' hactivating
  refine authorize_then fun _ => .mono (activateBatch_yields hp hactivating.progress
    (hactivating.driven.open hactivating.progress.indexed)) fun _ v'' h => ?_
  exact hactivating.next h.1 h.2

/-- The repair is about to be completed, or has been. -/
structure Completing (p : RepairPlan) (v : Database) : Prop where
  progress : p.Progress none v
  parent : p.Completed v ∨ ∃ d, p.IsParent v d ∧ d.status = .finalizing
  activated : p.AllActivated v

/-- The store with the original settled. -/
structure Settles (p : RepairPlan) (v : Database) (conflictId : String) (now : Date)
    (v' : Database) : Prop where
  indexed : v'.Indexed
  account : ∀ subject, accountOf v' subject = accountOf v subject
  reservation : ∀ identifier, reservation v' identifier =
    (reservation v identifier).map (p.settled conflictId now)
  batches : v'.batches = v.batches
  operations : v'.operations = v.operations

theorem Settles.resolve (h : p.Progress none v) {conflictId : String} {now : Date}
    {u : IdentifierUpdate} (hu : u = .resolveOriginal p.operationId conflictId
      p.manifest.retainedSubject ((p.items.head?.map (·.ref)).getD ⟨.staff, ""⟩) now)
    (hw : schema.write (.updateIdentifier u) v ≠ .duplicateKey) :
    Settles p v conflictId now (schema.wrote (.updateIdentifier u) v) := by
  subst hu
  have hone : ∀ r r' : AuthIdentifier, (IdentifierUpdate.resolveOriginal p.operationId conflictId
      p.manifest.retainedSubject ((p.items.head?.map (·.ref)).getD ⟨.staff, ""⟩) now).selects r = true →
      (IdentifierUpdate.resolveOriginal p.operationId conflictId p.manifest.retainedSubject
        ((p.items.head?.map (·.ref)).getD ⟨.staff, ""⟩) now).selects r' = true → r.id = r'.id := by
    intro r r' hr hr'
    simp only [IdentifierUpdate.selects, Bool.and_eq_true, decide_eq_true_eq] at hr hr'
    exact hr.1.trans hr'.1.symm
  obtain ⟨⟨ids, hids⟩, hreservation⟩ := wrote_identifier h.indexed hone hw
  refine ⟨wrote_indexed h.indexed _, fun subject => ?_, hreservation, by rw [hids], by rw [hids]⟩
  rw [hids, accountOf, accountOf]
  cases subject.subjectType <;> rfl

theorem Settles.recordEvent {conflictId : String} {now : Date} {v' : Database}
    (h : Settles p v conflictId now v') (e : SecurityActivityEvent) :
    Settles p v conflictId now (schema.wrote (.recordEvent e) v') := by
  have hindexed := wrote_indexed h.indexed (.recordEvent e)
  rcases wrote_event e v' with heq | ⟨e', heq⟩
  · rw [heq]
    exact h
  · rw [heq] at hindexed ⊢
    have hlike := Alike.put_event v' e'
    exact ⟨hindexed, fun subject => (hlike.account subject).trans (h.account subject),
      fun identifier => (hlike.reservation identifier).trans (h.reservation identifier),
      h.batches, h.operations⟩

/-- With the verdict on its parent the repair is completed. -/
theorem Completing.finishRepair (h : Completing p v) (hp : p.Distinct) {conflictId : String}
    {now date : Date} (hcast : castObjectId "_id" p.manifest.conflictId = pure conflictId)
    {v' : Database} (hsettles : Settles p v conflictId now v')
    {result : AuthIdentifierOperationResult} {eventId : String}
    (hw : schema.write (.updateOperation
      (.finishRepair p.operationId .completed result eventId date)) v' ≠ .duplicateKey) :
    Completing p (schema.wrote (.updateOperation
      (.finishRepair p.operationId .completed result eventId date)) v') := by
  have hindexed := wrote_indexed hsettles.indexed (.updateOperation
    (.finishRepair p.operationId .completed result eventId date))
  obtain ⟨d₀, hd₀, hactor, -⟩ := h.progress.parent
  have hd₀' : p.IsParent v' d₀ := ⟨hsettles.operations ▸ hd₀.1, hd₀.2⟩
  obtain ⟨v'', hv''⟩ : ∃ v'', v'' = schema.wrote (.updateOperation
    (.finishRepair p.operationId .completed result eventId date)) v' := ⟨_, rfl⟩
  rw [← hv''] at hindexed ⊢
  have hverdict : Alike v' v'' ∧ v''.batches = v'.batches ∧
      ∃ d, p.IsParent v'' d ∧ d.requestedBy.subjectId = p.actorId ∧ d.status = .completed := by
    rcases wrote_update rfl hw with ⟨d, hd, hu, -, hwrote⟩ | ⟨hnone, -, hwrote⟩
    · have hsel : d.operationId = p.operationId ∧ d.status = .finalizing := by
        simpa [OperationUpdate.selects] using hu
      obtain rfl := unique_parent hsettles.indexed ⟨hd, hsel.1⟩ hd₀'
      rw [hv'', hwrote]
      exact ⟨Alike.put_operation v' _, rfl, _, ⟨mem_replaceOne.mpr (.inl rfl), hsel.1⟩, hactor, rfl⟩
    · -- somebody has passed the verdict before
      have hcompleted : d₀.status = .completed := by
        rcases h.parent with ⟨d, hd, hstatus⟩ | ⟨d, hd, hstatus⟩
        · rw [← unique_parent h.progress.indexed hd hd₀]
          exact hstatus
        · obtain rfl := unique_parent h.progress.indexed hd hd₀
          have hsel := hnone d hd₀'.1
          simp [OperationUpdate.selects, hd₀.2, hstatus] at hsel
      rw [hv'', hwrote]
      exact ⟨⟨fun _ => rfl, fun _ => rfl⟩, rfl, d₀, hd₀', hactor, hcompleted⟩
  obtain ⟨hlike, hbatches, d, hd, hactor', hstatus⟩ := hverdict
  have hreservation : ∀ identifier, reservation v'' identifier =
      (reservation v identifier).map (p.settled conflictId now) := fun identifier =>
    (hlike.reservation identifier).trans (hsettles.reservation identifier)
  have hsame : p.batches v'' = p.batches v := by
    rw [batches, batches, hbatches, hsettles.batches]
  refine ⟨h.progress.finish hp rfl h.activated hcast hindexed (fun subject => ?_) hreservation
    (hbatches.trans hsettles.batches) ⟨d, hd, hactor', hstatus⟩, .inl ⟨d, hd, hstatus⟩, ?_⟩
  · exact (hlike.account subject).trans (hsettles.account subject)
  · rw [AllActivated, hsame]
    exact h.activated

theorem completeParent_yields (hp : p.Distinct) {input : OfflineRepairRequest}
    (hinput : input.operationId = p.operationId) {actorId : String} (h : Completing p v) :
    Yields (p.Progress none) none base (completeParent input p.manifest actorId) v
      fun _ _ => True := by
  refine draw_then fun _ => ?_
  refine withTransaction_yields (P := p.Completing) (fun v₀ n h _ => ?_) h
  refine draw_then fun now => still_then castObjectId_still fun conflictId hcast => ?_
  rw [hinput]
  refine updateIdentifier_then nofun fun hw => ?_
  have hsettles := Settles.resolve h.progress rfl hw
  rw [finishParent, SecurityActivityService.recordIdentifierOperationTerminal, bind_assoc]
  have verdict : ∀ {v₁ result eventId}, Settles p v₀ conflictId now v₁ →
      Yields (p.Progress none) (some n) v₀ (do
        let date ← draw .currentDate
        let _ ← updateOperation (some n) (.finishRepair p.operationId .completed result eventId date)) v₁
        fun _ v' => v'.Indexed → p.Progress none v' ∧ p.Completing v' ∧ True := by
    intro v₁ result eventId hsettles₁
    refine draw_then fun date => updateOperation_then nofun fun hw => .pure fun _ => ?_
    have hcompleting := h.finishRepair hp hcast hsettles₁ hw
    exact ⟨hcompleting.progress, hcompleting, trivial⟩
  exact recordIdempotent_then nofun (verdict hsettles) (verdict (hsettles.recordEvent _))

/-- Within the `try` of `apply`. -/
theorem applyBatches_yields (hp : p.Distinct) {input : OfflineRepairRequest}
    (hinput : input.operationId = p.operationId) {operation : AuthIdentifierOperation}
    {conflict : AuthIdentifier} {actorId : String} (hoperationId : operation.operationId = p.operationId)
    (hactor : operation.requestedBy.subjectId = p.actorId)
    (hsize : ∀ m ∈ p.size, m = env.identifierMaxOperationAssignments)
    (h : p.Progress none v) (hdriven : p.Driven v)
    (hcovers : p.Covers v env.identifierMaxOperationAssignments) :
    Yields (p.Progress none) none base
      (applyBatches env input p.manifest operation conflict actorId) v fun _ _ => True := by
  refine .bind (prepareBatches_yields hp hoperationId hactor hsize h hdriven hcovers)
    fun _ v₁ h₁ => ?_
  rw [hinput]
  refine .bind (activateBatches_yields hp h₁.activating) fun _ v₂ h₂ => ?_
  refine authorize_then fun _ => ?_
  have hprogress : p.Progress none (schema.wrote (.updateOperation
      (.moveStatus p.operationId [.applying] .finalizing)) v₂) :=
    h₂.progress.moveStatus (by simp) (by simp)
  refine updateOperation_then (fun _ _ => hprogress) fun hw => ?_
  refine completeParent_yields hp hinput ⟨hprogress, .inr ?_, ?_⟩
  · obtain ⟨d, hd, hstatus⟩ := h₂.driven
    rcases wrote_update rfl hw with ⟨d', hd', hu, -, hwrote⟩ | ⟨hnone, -, hwrote⟩
    · have hsel : d'.operationId = p.operationId ∧ d'.status = .applying := by
        simpa [OperationUpdate.selects] using hu
      rw [hwrote]
      exact ⟨_, ⟨mem_replaceOne.mpr (.inl rfl), hsel.1⟩, rfl⟩
    · rw [hwrote]
      refine ⟨d, hd, hstatus.resolve_left fun happlying => ?_⟩
      have hsel := hnone d hd.1
      simp [OperationUpdate.selects, hd.2, happlying] at hsel
  · have hsame : p.batches (schema.wrote (.updateOperation
        (.moveStatus p.operationId [.applying] .finalizing)) v₂) = p.batches v₂ := by
      rw [batches, batches, batches_updateOperation]
    rw [AllActivated, hsame]
    exact h₂.allActivated

theorem apply_yields (hp : p.Distinct) {input : OfflineRepairRequest}
    (hinput : input.operationId = p.operationId)
    (hmanifest : ∀ d m, p.IsParent v d → normalizeRepairManifest env input.manifest = pure m →
      verifyPersistedManifest env d m = pure () → m = p.manifest)
    (hsize : ∀ m ∈ p.size, m = env.identifierMaxOperationAssignments)
    (h : p.Progress none v) (hcovers : p.Covers v env.identifierMaxOperationAssignments) :
    Yields (p.Progress none) none base (apply env input) v fun _ _ => True := by
  refine .ite (fun _ => .throw) fun _ => authorize_then fun actorId => ?_
  refine still_then normalizeRepairManifest_still fun m hm => ?_
  refine requireOperation_then fun d hd hid => ?_
  have hparent : p.IsParent v d := ⟨hd, hid.trans hinput⟩
  refine still_then verifyPersistedManifest_still fun _ hverified => ?_
  obtain rfl := hmanifest d m hparent hm hverified
  refine .ite (fun _ => .pure trivial) fun hterminal => ?_
  refine loadConflict_then fun conflict _ _ _ => still_then validateManifestSubjects_still fun _ _ => ?_
  have hresume : Yields (p.Progress none) none base
      (recordResume d actorId (input.resumeId.getD "")) v fun _ v' =>
        p.Progress none v' ∧ v'.operations = v.operations ∧ v'.batches = v.batches := by
    rw [← bind_pure (recordResume _ _ _)]
    refine recordIdempotent_then (fun _ h => h.recordEvent _) (.pure ⟨h, rfl, rfl⟩)
      (.pure ⟨h.recordEvent _, ?_⟩)
    rcases wrote_event (SecurityActivityService.resumedEvent d.operationId (input.resumeId.getD "")
      ⟨.staff, d.requestedBy.subjectId⟩ ⟨.staff, actorId⟩) v with heq | ⟨e, heq⟩
    · rw [heq]
      exact ⟨rfl, rfl⟩
    · rw [heq]
      exact ⟨rfl, rfl⟩
  refine .bind hresume fun _ v₁ h₁ => ?_
  obtain ⟨h₁, hoperations, hbatches⟩ := h₁
  have hparent₁ : p.IsParent v₁ d := ⟨hoperations ▸ hparent.1, hparent.2⟩
  have hactor : d.requestedBy.subjectId = p.actorId := by
    obtain ⟨d', hd', hactor, -⟩ := h.parent
    rw [unique_parent h.indexed hparent hd']
    exact hactor
  have covers : ∀ {v₂ : Database}, v₂.batches = v.batches →
      p.Covers v₂ env.identifierMaxOperationAssignments := by
    intro v₂ hsame c hc
    rw [HasBatch, batches, hsame]
    intro hstored x hx
    obtain ⟨b, hb, hrest⟩ := hcovers c hc hstored x hx
    refine ⟨b, ?_, hrest⟩
    rw [batches, hsame]
    exact hb
  -- the loops, and what is done about their failure
  have attempt : ∀ {v₂}, p.Progress none v₂ → p.Driven v₂ → v₂.batches = v.batches →
      Yields (p.Progress none) none base (do
        tryCatch (applyBatches env input p.manifest d conflict actorId) fun error => do
          let _ ← updateOperation none (.moveStatus input.operationId [.applying] .failedRetryable)
          throw error
        let operation ← requireOperation input.operationId
        return result env operation p.manifest.reassignments.length false) v₂ fun _ _ => True := by
    intro v₂ h₂ hdriven hsame
    refine .bind (R := fun _ _ => True) (.tryCatch ?_ fun error v₃ => ?_) fun _ v₃ _ =>
      requireOperation_then fun _ _ _ => .pure trivial
    · exact applyBatches_yields hp hinput hparent.2 hactor hsize h₂ hdriven (covers hsame)
    · rw [hinput]
      exact updateOperation_then (fun _ h => h.moveStatus (by simp) (by simp)) fun _ => .throw
  refine .ite (fun hstatus => draw_then fun now => ?_) fun hstatus => ?_
  · have hprogress : p.Progress none (schema.wrote (.updateOperation
        (.startApplying input.operationId d.status actorId now)) v₁) := by
      refine h₁.updateOperation fun d' hd' => ?_
      simp only [OperationUpdate.selects, Bool.and_eq_true, decide_eq_true_eq] at hd'
      refine ⟨fun heq => ?_, rfl, by simp [OperationUpdate.apply]⟩
      rw [← hd'.2, heq] at hstatus
      simp at hstatus
    refine updateOperation_then (fun _ _ => hprogress) fun hw => attempt hprogress ?_
      ((batches_updateOperation _ _).trans hbatches)
    rcases wrote_update rfl hw with ⟨d', hd', hu, -, hwrote⟩ | ⟨hnone, -, -⟩
    · have hsel : d'.operationId = p.operationId ∧ d'.status = d.status := by
        simpa [OperationUpdate.selects, hinput] using hu
      rw [hwrote]
      exact ⟨_, ⟨mem_replaceOne.mpr (.inl rfl), hsel.1⟩, .inl rfl⟩
    · have hsel := hnone d hparent₁.1
      simp [OperationUpdate.selects, hparent₁.2, hinput] at hsel
  · refine attempt h₁ ⟨d, hparent₁, ?_⟩ hbatches
    obtain ⟨d', hd', -, hopen⟩ := h.parent
    rw [unique_parent h.indexed hd' hparent] at hopen
    cases hs : d.status <;> simp_all [AuthIdentifierOperationStatus.isTerminal]

end Apply

end RepairPlan

section System

/-- A call of `apply` on one operation, in a deployment whose batches have some size. -/
structure ApplyCall where
  maxAssignments : ℕ
  token : String
  manifest : RepairManifest
  resumeId : Option String
  deriving DecidableEq

def ApplyCall.environment (env : Environment) (call : ApplyCall) : Environment :=
  { env with identifierMaxOperationAssignments := call.maxAssignments }

def ApplyCall.request (operationId : String) (call : ApplyCall) : OfflineRepairRequest where
  token := call.token
  operationId := operationId
  manifest := call.manifest
  resumeId := call.resumeId

/-- The calls of `apply` for the operation. -/
abbrev repairs (env : Environment) (operationId : String) :
    System ApplyCall Op Store (Except Failure OfflineRepairResult) Event :=
  service fun call => (apply (call.environment env) (call.request operationId)).run

namespace RepairPlan

variable {ι : Type} [DecidableEq ι] {env : Environment} {p : RepairPlan}

/-- A call whose manifest passes the check presents the manifest of the repair. -/
def Presents (env : Environment) (p : RepairPlan) (v : Database) (call : ApplyCall) : Prop :=
  ∀ d m, p.IsParent v d →
    normalizeRepairManifest (call.environment env) call.manifest = pure m →
    verifyPersistedManifest (call.environment env) d m = pure () → m = p.manifest

/-- What holds of the store in every run of a repair whose callers take turns. -/
theorem progress_of_turns (hp : p.Distinct) (hstart : p.Progress none p.start)
    {may : Store → ApplyCall → Prop}
    (hmay : ∀ s call, p.Progress none s.committed → may s call → Presents env p s.committed call ∧
      (∀ m ∈ p.size, m = call.maxAssignments) ∧ p.Covers s.committed call.maxAssignments)
    {c : Config ι ApplyCall Op Store (Except Failure OfflineRepairResult) Event}
    (hrun : (repairs env p.operationId).Turns may (Config.init (.init p.start)) c) :
    p.Progress none c.store.committed := by
  refine (Guarded.turns (I := fun s => p.Progress none s.committed) (Q := fun _ _ _ => True) ?_ ?_
    (.init hstart) hrun).inv
  · intro call s h hcall
    obtain ⟨hpresents, hsize, hcovers⟩ := hmay s call h hcall
    have hyields : Yields (p.Progress none) none s.committed
        (apply (call.environment env) (call.request p.operationId)) s.committed fun _ _ => True :=
      apply_yields hp rfl hpresents hsize h hcovers
    exact hyields.guards ⟨h, rfl⟩ fun _ _ => trivial
  · exact fun _ _ h => h

end RepairPlan

end System

end Operations
