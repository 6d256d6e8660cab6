import BookLibrary.Interleaving.Traces
import BookLibrary.TokenSession.Execution
import BookLibrary.TokenSession.Markers

/-!
# A reconciliation pass on its own

What a pass makes of the markers it examines when nothing interleaves and every call
answers. It judges each marker by the family as it is by then, so a marker that it has left
pending may lose its family to a later one.
-/

namespace TokenSession

open Documents Interleaving

/-- No call throws. -/
def NoFault (β : Type) (_ : Op β) : Prop := False

/-- No family of that id is active or holds a hash. -/
def Over (s : Database) (familyId : String) : Prop :=
  ∀ f ∈ s.families, f.familyId = familyId → f.status ≠ .active ∧ f.currentTokenHash = none

/-- The marker is stored as it was, and its family is active, unexpired and holds its hash. -/
def LeftPending (now : Date) (s : Database) (m : RefreshTokenReplayMarker) : Prop :=
  m ∈ s.markers ∧ ∃ f ∈ s.families, f.familyId = m.familyId ∧ f.isCurrent m.tokenHash now = true

/-- The marker is committed, without a lease, and its family is over. -/
def Finalized (s : Database) (m : RefreshTokenReplayMarker) : Prop :=
  (∃ date, m.commit date ∈ s.markers) ∧ Over s m.familyId

/-- The marker is stored as it was, and its family is over by a marker examined after it. -/
def Overtaken (batch : List RefreshTokenReplayMarker) (s : Database)
    (m : RefreshTokenReplayMarker) : Prop :=
  m ∈ s.markers ∧ Over s m.familyId ∧
    ∃ m', [m, m'].Sublist batch ∧ m'.familyId = m.familyId ∧ Finalized s m'

/-- What is neither finalized nor the family of such a marker is as it was. -/
structure Spared (s : Database) (batch : List RefreshTokenReplayMarker) (s' : Database) : Prop where
  marker : ∀ m ∈ s.markers, m ∈ s'.markers ∨ m ∈ batch ∧ Finalized s' m
  markerFrom : ∀ m' ∈ s'.markers, m' ∈ s.markers ∨
    ∃ m ∈ batch, Finalized s' m ∧ ∃ date, m' = m.commit date
  family : ∀ f ∈ s.families, f ∈ s'.families ∨
    ∃ m ∈ batch, Finalized s' m ∧ m.familyId = f.familyId
  familyFrom : ∀ f' ∈ s'.families, f' ∈ s.families ∨
    ∃ m ∈ batch, Finalized s' m ∧ m.familyId = f'.familyId

/-- `n` of the markers are finalized. -/
def Counts (batch : List RefreshTokenReplayMarker) (n : ℕ) (s : Database) : Prop :=
  ∃ finalized : List RefreshTokenReplayMarker, finalized.Sublist batch ∧ finalized.length = n ∧
    ∀ m ∈ batch, m ∈ finalized ↔ Finalized s m

/-- What a pass over the batch leaves. -/
structure Reconciled (now : Date) (s : Database) (batch : List RefreshTokenReplayMarker) (n : ℕ)
    (s' : Database) : Prop where
  examined : ∀ m ∈ batch, LeftPending now s' m ∨ Finalized s' m ∨ Overtaken batch s' m
  spared : Spared s batch s'
  counts : Counts batch n s'

/-- The unique indexes, and that a family which is not active holds no hash. -/
structure Kept (s : Database) : Prop where
  indexed : s.Indexed
  inactive : ∀ f ∈ s.families, f.status ≠ .active → f.currentTokenHash = none

/-- The markers of a batch: stored, pending, no two of them of one token. -/
structure Batch (s : Database) (batch : List RefreshTokenReplayMarker) : Prop where
  stored : ∀ m ∈ batch, m ∈ s.markers ∧ m.status = .pending
  nodup : batch.Nodup

/-- What a program of a pass leads to. -/
abbrev Passes {α : Type} (x : Refresh α) (s : Database)
    (Q : Except RefreshFailure α → Database → Prop) : Prop :=
  Leads exec NoFault (fun _ => (none : Option Unit)) (fun v s => s = v) x.run s fun _ r s' => Q r s'

variable {now : Date} {s s' : Database} {m : RefreshTokenReplayMarker}
  {batch : List RefreshTokenReplayMarker}

theorem passes_call {β : Type} {op : Op β} {Q : Except RefreshFailure β → Database → Prop}
    (h : ∀ b s', exec β op s b s' → Q (.ok b) s') : Passes (call op) s Q := by
  refine .run_perform fun s₀ hs o s₁ hgoes => ⟨s₁, rfl, ?_⟩
  subst hs
  cases o with
  | answered b => exact h b s₁ hgoes
  | threw r => cases r <;> exact hgoes.1.elim

theorem passes_bind {α β : Type} {x : Refresh β} {f : β → Refresh α} {R : β → Database → Prop}
    {Q : Except RefreshFailure α → Database → Prop}
    (hx : Passes x s fun r s' => ∃ b, r = .ok b ∧ R b s')
    (hf : ∀ b s₁, R b s₁ → Passes (f b) s₁ Q) : Passes (x >>= f) s Q := by
  refine .run_bind hx (fun _ b s₁ hb => ?_) fun _ e s₁ he => ?_
  · obtain ⟨b', heq, hR⟩ := hb
    cases heq
    exact hf b s₁ hR
  · obtain ⟨b, heq, -⟩ := he
    cases heq

/-- Where nothing throws, nothing is caught. -/
theorem passes_tryCatch {α : Type} {x : Refresh α} {f : RefreshFailure → Refresh α}
    {R : α → Database → Prop} (hx : Passes x s fun r s' => ∃ b, r = .ok b ∧ R b s') :
    Passes (tryCatch x f) s fun r s' => ∃ b, r = .ok b ∧ R b s' := by
  refine .run_tryCatch hx (fun _ _ _ h => h) fun _ e s₁ he => ?_
  obtain ⟨b, heq, -⟩ := he
  cases heq

/-- The marker has been committed and its family revoked. -/
structure Finalizes (s : Database) (m : RefreshTokenReplayMarker) (s' : Database) : Prop where
  committed : ∃ date, UpdateOne (RefreshTokenReplayMarker.isPending m.tokenHash m.rotationOperationId)
    (RefreshTokenReplayMarker.commit date) s.markers (some (m.commit date)) s'.markers
  revoked : ∃ reason date, s'.families = updateMany (RevocationFilter.familyId m.familyId).selects
    (revocationUpdate .revoked reason date) s.families
  indexed : s'.Indexed

theorem marker_eq {m' : RefreshTokenReplayMarker} (hs : s.Indexed) (hm : m ∈ s.markers)
    (hm' : m' ∈ s.markers) (h : m'.tokenHash = m.tokenHash) : m' = m :=
  hs.tokenHash.eq hm' hm (congrArg some h) rfl

theorem commitMarker_passes (hs : s.Indexed) (hm : m ∈ s.markers) (hpending : m.status = .pending) :
    Passes (commitMarker m.tokenHash m.rotationOperationId) s fun r s' => ∃ b, r = .ok b ∧
      (∃ date, UpdateOne (RefreshTokenReplayMarker.isPending m.tokenHash m.rotationOperationId)
        (RefreshTokenReplayMarker.commit date) s.markers (some (m.commit date)) s'.markers) ∧
      s'.families = s.families := by
  refine passes_bind (R := fun _ s₁ => s₁ = s) (passes_call fun date s₁ h => ⟨date, rfl, h.1⟩) ?_
  rintro date _ rfl
  refine passes_call fun b s₂ h => ⟨b, rfl, ?_⟩
  obtain ⟨⟨markers, hupdate, rfl⟩, -⟩ := h
  cases b with
  | none =>
    have hfalse := hupdate.1 m hm
    simp [RefreshTokenReplayMarker.isPending, hpending] at hfalse
  | some m' =>
    obtain ⟨d, hd, hp, rfl, -⟩ := hupdate.source
    obtain rfl := marker_eq hs hm hd (RefreshTokenReplayMarker.isPending_iff.mp hp).1
    exact ⟨⟨date, hupdate⟩, rfl⟩

theorem finalizeAndRevoke_passes {reason : String} (hs : s.Indexed) (hm : m ∈ s.markers)
    (hpending : m.status = .pending) :
    Passes (finalizeAndRevoke m.familyId m.tokenHash m.rotationOperationId reason) s fun r s' =>
      ∃ b, r = .ok b ∧ Finalizes s m s' := by
  refine passes_bind (passes_tryCatch (commitMarker_passes hs hm hpending)) ?_
  rintro _ s₁ ⟨hmarker, hfamilies⟩
  refine passes_bind (R := fun _ s₂ => s₂ = s₁) (passes_call fun date s₂ h => ⟨date, rfl, h.1⟩) ?_
  rintro date _ rfl
  refine passes_bind (R := fun _ s₃ => Finalizes s m s₃) ?_ fun _ s₃ h => .run_pure ⟨(), rfl, h⟩
  refine passes_call fun n s₃ h => ⟨n, rfl, ?_⟩
  obtain ⟨⟨-, rfl⟩, hindexed⟩ := h
  exact ⟨hmarker, ⟨reason, date, by rw [hfamilies]⟩, hindexed⟩

/-- The pass leaves the marker and its family as they are, or makes an end of both. -/
theorem reconcileMarker_passes (hs : s.Indexed) (hm : m ∈ s.markers) (hpending : m.status = .pending) :
    Passes (reconcileMarker now m) s fun r s' => ∃ n, r = .ok n ∧
      ((n = 0 ∧ s' = s ∧ LeftPending now s m) ∨ (n = 1 ∧ Finalizes s m s')) := by
  refine passes_tryCatch (R := fun n s' => (n = 0 ∧ s' = s ∧ LeftPending now s m) ∨
    (n = 1 ∧ Finalizes s m s')) ?_
  refine passes_bind (R := fun r s₁ => s₁ = s ∧ FindOne (fun f => decide (f.familyId = m.familyId))
    s.families r) (passes_call fun r s₁ h => ⟨r, rfl, h.1.2, h.1.1⟩) ?_
  rintro family _ ⟨rfl, hfound⟩
  refine .run_ite (fun hcurrent => .run_pure ⟨0, rfl, .inl ⟨rfl, rfl, hm, ?_⟩⟩) fun _ => ?_
  · cases family with
    | none => cases hcurrent
    | some f => exact ⟨f, hfound.1, of_decide_eq_true hfound.2, hcurrent⟩
  · exact passes_bind (finalizeAndRevoke_passes hs hm hpending) fun _ s₁ h =>
      .run_pure ⟨1, rfl, .inr ⟨rfl, h⟩⟩

namespace Finalizes

variable (h : Finalizes s m s') (hs : Kept s)

include h

theorem stored : ∃ date, m.commit date ∈ s'.markers := by
  obtain ⟨date, hupdate⟩ := h.committed
  obtain ⟨-, -, -, -, hmem⟩ := hupdate.source
  exact ⟨date, hmem⟩

theorem markerFrom {m' : RefreshTokenReplayMarker} (hm' : m' ∈ s'.markers) :
    m' ∈ s.markers ∨ ∃ date, m' = m.commit date := by
  obtain ⟨date, hupdate⟩ := h.committed
  exact (hupdate.mem hm').imp_right fun heq => ⟨date, heq⟩

theorem familyFrom {f : RefreshTokenFamily} (hf : f ∈ s'.families) :
    f ∈ s.families ∨ f.familyId = m.familyId := by
  obtain ⟨reason, date, hfamilies⟩ := h.revoked
  rw [hfamilies] at hf
  rcases mem_updateMany.mp hf with ⟨hf, -⟩ | ⟨g, -, hselects, rfl⟩
  · exact .inl hf
  · rw [RevocationFilter.selects, Bool.and_eq_true] at hselects
    exact .inr (of_decide_eq_true hselects.2)

theorem family {f : RefreshTokenFamily} (hf : f ∈ s.families) (hne : f.familyId ≠ m.familyId) :
    f ∈ s'.families := by
  obtain ⟨reason, date, hfamilies⟩ := h.revoked
  rw [hfamilies]
  exact mem_updateMany.mpr (.inl ⟨hf, by simp [RevocationFilter.selects, hne]⟩)

include hs

theorem marker {m' : RefreshTokenReplayMarker} (hm : m ∈ s.markers) (hm' : m' ∈ s.markers)
    (hne : m' ≠ m) : m' ∈ s'.markers := by
  obtain ⟨date, hupdate⟩ := h.committed
  rcases hupdate.kept hm' with hkept | ⟨hp, -⟩
  · exact hkept
  · exact absurd (marker_eq hs.indexed hm hm' (RefreshTokenReplayMarker.isPending_iff.mp hp).1) hne

theorem kept : Kept s' where
  indexed := h.indexed
  inactive f hf hstatus := by
    obtain ⟨reason, date, hfamilies⟩ := h.revoked
    rw [hfamilies] at hf
    rcases mem_updateMany.mp hf with ⟨hf, -⟩ | ⟨g, -, -, rfl⟩
    · exact hs.inactive f hf hstatus
    · rfl

theorem isOver : Over s' m.familyId := by
  intro f hf hid
  have hstatus : f.status ≠ .active := by
    obtain ⟨reason, date, hfamilies⟩ := h.revoked
    rw [hfamilies] at hf
    rcases mem_updateMany.mp hf with ⟨hf, hp⟩ | ⟨g, -, -, rfl⟩
    · intro hactive
      simp [RevocationFilter.selects, hactive, hid] at hp
    · rintro ⟨⟩
  exact ⟨hstatus, (h.kept hs).inactive f hf hstatus⟩

end Finalizes

theorem Spared.mono {batch' : List RefreshTokenReplayMarker} (h : Spared s batch s')
    (hsub : batch ⊆ batch') : Spared s batch' s' where
  marker m hm := (h.marker m hm).imp_right fun ⟨hb, hf⟩ => ⟨hsub hb, hf⟩
  markerFrom m' hm' := (h.markerFrom m' hm').imp_right fun ⟨m, hb, hf⟩ => ⟨m, hsub hb, hf⟩
  family f hf := (h.family f hf).imp_right fun ⟨m, hb, hm⟩ => ⟨m, hsub hb, hm⟩
  familyFrom f hf := (h.familyFrom f hf).imp_right fun ⟨m, hb, hm⟩ => ⟨m, hsub hb, hm⟩

/-- What is over stays over. -/
theorem Over.spared {id : String} (h : Over s id) (hspared : Spared s batch s') : Over s' id := by
  intro f hf hid
  rcases hspared.familyFrom f hf with hold | ⟨m, -, hm, hmid⟩
  · exact h f hold hid
  · exact hm.2 f hf hmid.symm

theorem Overtaken.cons {m' : RefreshTokenReplayMarker} (h : Overtaken batch s m) :
    Overtaken (m' :: batch) s m := by
  obtain ⟨hm, hover, m₂, hsub, hid⟩ := h
  exact ⟨hm, hover, m₂, hsub.cons m', hid⟩

/-- A marker that is stored as it was is not finalized. -/
theorem not_finalized (hs : s.Indexed) (hm : m ∈ s.markers) (hpending : m.status = .pending) :
    ¬ Finalized s m := by
  rintro ⟨⟨date, hcommitted⟩, -⟩
  have heq : m.commit date = m := marker_eq hs hm hcommitted rfl
  have hstatus : (m.commit date).status = .committed := rfl
  rw [heq, hpending] at hstatus
  cases hstatus

theorem Batch.tail (h : Batch s (m :: batch)) : Batch s batch where
  stored m' hm' := h.stored m' (List.mem_cons_of_mem m hm')
  nodup := (List.nodup_cons.mp h.nodup).2

namespace Reconciled

variable {n : ℕ}

/-- A marker that is left pending keeps its family, or loses it to one of the others. -/
theorem leave (h : Reconciled now s batch n s') (hs' : Kept s') (hb : Batch s (m :: batch))
    (hleft : LeftPending now s m) : Reconciled now s (m :: batch) n s' := by
  obtain ⟨hm, f, hf, hid, hcurrent⟩ := hleft
  have hnew : m ∉ batch := (List.nodup_cons.mp hb.nodup).1
  have hm' : m ∈ s'.markers := (h.spared.marker m hm).resolve_right fun hin => hnew hin.1
  refine ⟨fun m' hm' => ?_, h.spared.mono (List.subset_cons_self m batch), ?_⟩
  · rcases List.mem_cons.mp hm' with rfl | hrest
    · rcases h.spared.family f hf with hkept | ⟨m₂, hm₂, hfinal, heq⟩
      · exact .inl ⟨‹_›, f, hkept, hid, hcurrent⟩
      · -- the family has been revoked on account of a later marker
        have hsame : m₂.familyId = m'.familyId := heq.trans hid
        exact .inr (.inr ⟨‹_›, hsame ▸ hfinal.2, m₂,
          (List.singleton_sublist.mpr hm₂).cons_cons m', hsame, hfinal⟩)
    · exact (h.examined m' hrest).imp_right (Or.imp_right Overtaken.cons)
  · obtain ⟨finalized, hsub, hlength, hiff⟩ := h.counts
    refine ⟨finalized, hsub.cons m, hlength, fun m' hm'' => ?_⟩
    rcases List.mem_cons.mp hm'' with rfl | hrest
    · have hnot := not_finalized hs'.indexed hm' (hb.stored m' List.mem_cons_self).2
      exact ⟨fun hin => absurd (hsub.subset hin) hnew, fun hfinal => absurd hfinal hnot⟩
    · exact hiff m' hrest

/-- A marker that is finalized stays so, and its family stays over. -/
theorem finalized {s₁ : Database} (h : Reconciled now s₁ batch n s') (hs : Kept s)
    (hb : Batch s (m :: batch)) (hfinalizes : Finalizes s m s₁) : Finalized s' m := by
  obtain ⟨date, hstored⟩ := hfinalizes.stored
  refine ⟨⟨date, (h.spared.marker _ hstored).resolve_right fun hin => ?_⟩,
    (hfinalizes.isOver hs).spared h.spared⟩
  exact nomatch (hb.tail.stored _ hin.1).2

theorem finalize {s₁ : Database} (h : Reconciled now s₁ batch n s') (hs : Kept s)
    (hb : Batch s (m :: batch)) (hfinalizes : Finalizes s m s₁) :
    Reconciled now s (m :: batch) (n + 1) s' := by
  have hnew : m ∉ batch := (List.nodup_cons.mp hb.nodup).1
  have hm := (hb.stored m List.mem_cons_self).1
  have hfinal : Finalized s' m := h.finalized hs hb hfinalizes
  have hspared := h.spared.mono (List.subset_cons_self m batch)
  refine ⟨fun m' hm' => ?_, ⟨?_, ?_, ?_, ?_⟩, ?_⟩
  · rcases List.mem_cons.mp hm' with rfl | hrest
    · exact .inr (.inl hfinal)
    · exact (h.examined m' hrest).imp_right (Or.imp_right Overtaken.cons)
  · intro m' hm'
    by_cases heq : m' = m
    · subst heq
      exact .inr ⟨List.mem_cons_self, hfinal⟩
    · exact hspared.marker m' (hfinalizes.marker hs hm hm' heq)
  · intro m' hm'
    rcases hspared.markerFrom m' hm' with hold | hnew'
    · exact (hfinalizes.markerFrom hold).imp_right fun heq => ⟨m, List.mem_cons_self, hfinal, heq⟩
    · exact .inr hnew'
  · intro f hf
    by_cases hid : f.familyId = m.familyId
    · exact .inr ⟨m, List.mem_cons_self, hfinal, hid.symm⟩
    · exact hspared.family f (hfinalizes.family hf hid)
  · intro f hf
    rcases hspared.familyFrom f hf with hold | hnew'
    · exact (hfinalizes.familyFrom hold).imp_right fun hid => ⟨m, List.mem_cons_self, hfinal, hid.symm⟩
    · exact .inr hnew'
  · obtain ⟨finalized, hsub, hlength, hiff⟩ := h.counts
    refine ⟨m :: finalized, hsub.cons_cons m, by rw [List.length_cons, hlength], fun m' hm' => ?_⟩
    rcases List.mem_cons.mp hm' with rfl | hrest
    · exact ⟨fun _ => hfinal, fun _ => List.mem_cons_self⟩
    · have hne : m' ≠ m := fun heq => hnew (heq ▸ hrest)
      rw [List.mem_cons, or_iff_right hne]
      exact hiff m' hrest

end Reconciled

/-- The end of one marker brings no other back to its family. -/
theorem Finalizes.leftPending {m' : RefreshTokenReplayMarker} (h : Finalizes s m s') (hs : Kept s)
    (hm' : m' ∈ s.markers) (hleft : LeftPending now s' m') : LeftPending now s m' := by
  obtain ⟨-, f, hf, hid, hcurrent⟩ := hleft
  rcases h.familyFrom hf with hold | hsame
  · exact ⟨hm', f, hold, hid, hcurrent⟩
  · exact absurd (RefreshTokenFamily.isCurrent_iff.mp hcurrent).2.1 (h.isOver hs f hf hsame).1

theorem reconcileMarkers_passes (hs : Kept s) (hb : Batch s batch) (k : ℕ) :
    Passes (reconcileMarkers now batch k) s fun r s' => ∃ n, r = .ok (k + n) ∧
      Reconciled now s batch n s' ∧ Kept s' ∧
      ∀ m ∈ batch, ¬ LeftPending now s m → Finalized s' m := by
  induction batch generalizing s k with
  | nil =>
    have hspared : Spared s [] s :=
      ⟨fun _ => .inl, fun _ => .inl, fun _ => .inl, fun _ => .inl⟩
    exact .run_pure ⟨0, rfl, ⟨nofun, hspared, [], .slnil, rfl, nofun⟩, hs, nofun⟩
  | cons m batch ih =>
    obtain ⟨hm, hpending⟩ := hb.stored m List.mem_cons_self
    have hnew : m ∉ batch := (List.nodup_cons.mp hb.nodup).1
    refine passes_bind (R := fun n s₁ => (n = 0 ∧ s₁ = s ∧ LeftPending now s m) ∨
      (n = 1 ∧ Finalizes s m s₁)) (reconcileMarker_passes hs.indexed hm hpending) ?_
    rintro n s₁ (⟨rfl, rfl, hleft⟩ | ⟨rfl, hfinalizes⟩)
    · refine (ih hs hb.tail (k + 0)).mono fun _ r s' h => ?_
      obtain ⟨n, hr, hreconciled, hs', hsettled⟩ := h
      refine ⟨n, hr, hreconciled.leave hs' hb hleft, hs', fun m' hm' hnot => ?_⟩
      rcases List.mem_cons.mp hm' with rfl | hrest
      · exact absurd hleft hnot
      · exact hsettled m' hrest hnot
    · have hrest : Batch s₁ batch := by
        refine ⟨fun m' hm' => ⟨?_, (hb.tail.stored m' hm').2⟩, hb.tail.nodup⟩
        exact hfinalizes.marker hs hm (hb.tail.stored m' hm').1 fun heq => hnew (heq ▸ hm')
      refine (ih (hfinalizes.kept hs) hrest (k + 1)).mono fun _ r s' h => ?_
      obtain ⟨n, hr, hreconciled, hs', hsettled⟩ := h
      refine ⟨n + 1, by rw [hr, Nat.add_assoc, Nat.add_comm 1 n],
        hreconciled.finalize hs hb hfinalizes, hs', fun m' hm' hnot => ?_⟩
      rcases List.mem_cons.mp hm' with rfl | hin
      · exact hreconciled.finalized hs hb hfinalizes
      · exact hsettled m' hin fun hleft =>
          hnot (hfinalizes.leftPending hs (hb.tail.stored m' hin).1 hleft)

/-- What the query of a pass selects. -/
def isExpiredPending (now : Date) (m : RefreshTokenReplayMarker) : Bool :=
  decide (m.status = .pending) && m.leaseExpired now

theorem batch_of_findSorted (hs : s.Indexed) (h : FindSorted (isExpiredPending now)
    RefreshTokenReplayMarker.leaseKey reconciliationBatchSize s.markers batch) : Batch s batch := by
  have hnodup : s.markers.Nodup := by
    have hhashes : (s.markers.filterMap fun m => some m.tokenHash).Nodup := hs.tokenHash
    rw [List.filterMap_eq_map'] at hhashes
    exact hhashes.of_map
  obtain ⟨sorted, hperm, -, rfl⟩ := h
  refine ⟨fun m hm => ?_, ?_⟩
  · have hmem := hperm.subset (List.mem_of_mem_take hm)
    rw [List.mem_filter, isExpiredPending, Bool.and_eq_true, decide_eq_true_eq] at hmem
    exact ⟨hmem.1, hmem.2.1⟩
  · exact ((hnodup.filter _).perm hperm.symm).sublist (List.take_sublist _ _)

/-- The markers of a pass: those that its query has answered. -/
def examined : List (Step Op) → List RefreshTokenReplayMarker
  | ⟨.findExpiredPending _, .answered batch⟩ :: _ => batch
  | _ => []

/-- After a pass on its own every marker that it has examined is pending as before with the family
active, unexpired and at its hash, or committed with the family over, or pending with the family
over by a marker examined after it. -/
theorem pass_reconciles {ι : Type} [DecidableEq ι] {sha256 : String → String}
    (hsha : Function.Injective sha256) {ttl : Prop} {clock : Date}
    {cfg : Config ι Call Op Database Reply Event}
    (h : (system sha256 ttl).Reachable (Database.empty clock) cfg) {l : List (Step Op)}
    {r : Except RefreshFailure ℕ}
    (hpass : Traces exec NoFault (runExpiredPendingMarkers now).run cfg.store l r s') :
    ∃ n, r = .ok n ∧ Reconciled now cfg.store (examined l) n s' := by
  have hinv := (wellFormed_of_reachable ttl hsha h).inv
  have hkept : Kept cfg.store := ⟨hinv.indexed, hinv.ledger.inactive⟩
  obtain ⟨o, s₁, rest, rfl, hgoes, hrest⟩ := hpass
  cases o with
  | threw b => cases b <;> exact hgoes.1.elim
  | answered batch =>
    obtain ⟨⟨hbatch, rfl⟩, -⟩ := hgoes
    obtain ⟨s₂, rfl, n, hr, hreconciled, -⟩ := reconcileMarkers_passes hkept
      (batch_of_findSorted hkept.indexed hbatch) 0 _ rfl _ _ _ hrest
    exact ⟨n, by rw [hr, Nat.zero_add], hreconciled⟩

section Schedules

/-- A call that answers, on the store that it leaves. -/
def answer (β : Type) (op : Op β) (s : Database) (x : Draw) : Option (β × Database) :=
  (perform β op s x).bind fun r => if r.2.Indexed then some r else none

theorem answer_exec {β : Type} {op : Op β} {x : Draw} {b : β}
    (h : answer β op s x = some (b, s')) : exec β op s b s' := by
  obtain ⟨⟨b', s''⟩, hperform, heq⟩ := Option.bind_eq_some_iff.mp h
  by_cases hindexed : s''.Indexed
  · simp only [hindexed, if_true] at heq
    cases heq
    exact ⟨perform_effect hperform, hindexed⟩
  · simp only [hindexed, if_false] at heq
    cases heq

/-- The pass at `now`, whose clock shows `now` all along. -/
def passRun (now : Date) (s : Database) :
    Option (List (Step Op) × Except RefreshFailure ℕ × Database) :=
  trace answer (fun _ _ => false) ⟨"", now⟩ [] (runExpiredPendingMarkers now).run s

theorem traces_of_passRun {l : List (Step Op)} {r : Except RefreshFailure ℕ}
    (h : passRun now s = some (l, r, s')) :
    Traces exec NoFault (runExpiredPendingMarkers now).run s l r s' :=
  traces_of_trace answer_exec (fun h => by cases h) h

/-- The monitor removes the markers that have expired, and no family yet. -/
def lapse (clock : Date) (cfg : Run) : Run :=
  { cfg with store := { cfg.store with
      clock := clock, markers := cfg.store.markers.filter fun m => decide (clock < m.expiresAt) } }

theorem lapse_step {sha256 : String → String} {clock : Date} {cfg : Run}
    (h : cfg.store.clock ≤ clock) : (system sha256 True).Step anyCall cfg (lapse clock cfg) :=
  .env ⟨h, rfl, ⟨.refl _, fun _ hf _ => hf⟩,
    ⟨List.filter_sublist, fun _ hm hlive => List.mem_filter.mpr ⟨hm, decide_eq_true hlive⟩⟩,
    fun hno => absurd trivial hno⟩

/-- Caller 1 has found the family of "t0" and is held up; caller 2 rotates "t0" to "t1". -/
def overtaking : Schedule :=
  signsIn 0 "t0" "f0" ++
    [.start 1 (.rotate "t0" 3560001), go 1, go 1, draws 1 "o1",
      .start 2 (.rotate "t0" 3550000), go 2, go 2, draws 2 "o2", go 2, draws 2 "t1", go 2,
      reads 2 3550000, go 2]

/-- Caller 3 prepares a rotation of "t1"; caller 1 inserts its marker of "t0" by now. -/
def resumes : Schedule :=
  [.start 3 (.rotate "t1" 3560000), go 3, go 3, draws 3 "o3", go 3, go 1]

/-- What a pass makes of the markers when the first marker of "t0" has been removed by a database
whose clock is ahead of the callers'. -/
def overtakes : Option (Run × Run × List (Step Op) × Except RefreshFailure ℕ × Database) :=
  ((anyDriver id True).play atRest overtaking).bind fun cfg =>
    if cfg.store.clock ≤ 3600000 then
      ((anyDriver id True).play (lapse 3600000 cfg) resumes).bind fun cfg' =>
        (passRun 3595000 cfg'.store).map fun result => (cfg, cfg', result)
    else none

theorem runs_of_overtakes {cfg cfg' : Run}
    {pass : List (Step Op) × Except RefreshFailure ℕ × Database}
    (h : overtakes = some (cfg, cfg', pass)) :
    (system id True).Reachable (Database.empty 0) cfg' ∧
      passRun 3595000 cfg'.store = some pass := by
  obtain ⟨cfg₁, hovertaking, hrest⟩ := Option.bind_eq_some_iff.mp h
  by_cases hclock : cfg₁.store.clock ≤ 3600000
  · rw [if_pos hclock] at hrest
    obtain ⟨cfg₂, hresumes, hpass⟩ := Option.bind_eq_some_iff.mp hrest
    obtain ⟨pass', hpassed, heq⟩ := Option.map_eq_some_iff.mp hpass
    cases heq
    exact ⟨((Driver.play_runs hovertaking).tail (lapse_step hclock)).trans
      (Driver.play_runs hresumes), hpassed⟩
  · rw [if_neg hclock] at hrest
    cases hrest

/-- The pass finds a rotation that stopped between its swap and its commit. -/
theorem pass_reconciles_stopped : ∃ cfg : Run,
    (system id True).Reachable (Database.empty 0) cfg ∧ ∃ l r s',
      Traces exec NoFault (runExpiredPendingMarkers 40000).run cfg.store l r s' ∧
      (examined l).length = 1 ∧ ∃ n, r = .ok n ∧ Reconciled 40000 cfg.store (examined l) n s' := by
  have hrun : (after True atRest (signsIn 0 "t0" "f0" ++
      [.start 1 (.rotate "t0" 0), go 1, go 1, draws 1 "o1", go 1, draws 1 "t1", go 1])
      fun cfg => (passRun 40000 cfg.store).map fun pass => (examined pass.1).length) =
        some (some 1) := by
    decide +kernel
  obtain ⟨cfg, hreach, hview⟩ := runs_of_after hrun
  obtain ⟨⟨l, r, s'⟩, hpass, hlength⟩ := Option.map_eq_some_iff.mp hview
  have htraces := traces_of_passRun hpass
  exact ⟨cfg, hreach, l, r, s', htraces, hlength, pass_reconciles Function.injective_id hreach htraces⟩

/-- The marker of "t1" is examined first and left pending; that of "t0" then has the family
revoked. -/
theorem pass_overtakes : ∃ cfg : Run, (system id True).Reachable (Database.empty 0) cfg ∧
    ∃ l r s', Traces exec NoFault (runExpiredPendingMarkers 3595000).run cfg.store l r s' ∧
      ∃ m ∈ examined l, ¬ LeftPending 3595000 s' m ∧ ¬ Finalized s' m := by
  have hrun : overtakes.map (fun result =>
      ((examined result.2.2.1).map (·.tokenHash), result.2.2.2.2.families.map (·.status),
        result.2.2.2.2.markers.all fun m => m.tokenHash = "t1" → m.status = .pending)) =
      some (["t1", "t0"], [.revoked], true) := by
    decide +kernel
  obtain ⟨⟨cfg, cfg', l, r, s'⟩, hresult, hview⟩ := Option.map_eq_some_iff.mp hrun
  obtain ⟨hexamined, hview⟩ := Prod.mk.inj hview
  obtain ⟨hfamilies, hmarkers⟩ := Prod.mk.inj hview
  obtain ⟨hreach, hpassed⟩ := runs_of_overtakes hresult
  refine ⟨cfg', hreach, l, r, s', traces_of_passRun hpassed, ?_⟩
  have hfirst : "t1" ∈ (examined l).map (·.tokenHash) := hexamined ▸ List.mem_cons_self
  obtain ⟨m, hm, hhash⟩ := List.mem_map.mp hfirst
  refine ⟨m, hm, ?_, ?_⟩
  · rintro ⟨-, f, hf, -, hcurrent⟩
    have hstatus : f.status ∈ [RefreshTokenFamilyStatus.revoked] :=
      hfamilies ▸ List.mem_map_of_mem hf
    have hactive := (RefreshTokenFamily.isCurrent_iff.mp hcurrent).2.1
    rw [hactive] at hstatus
    simp at hstatus
  · rintro ⟨⟨date, hcommitted⟩, -⟩
    have hpending := of_decide_eq_true (List.all_eq_true.mp hmarkers _ hcommitted)
    exact nomatch hpending hhash

end Schedules

end TokenSession
