import BookLibrary.TokenSession.Passes

/-!
# The backlog of expired markers

A pass examines the expired pending markers with the earliest leases, a hundred at most, and
leaves those alone whose family still holds the presented hash. Such markers take up their places
in every pass, and only the other places serve to settle the rest of the backlog.
-/

namespace TokenSession

open Documents Interleaving

/-- The family of the marker is active, unexpired and still holds the presented hash. -/
def isPreSwap (now : Date) (s : Database) (m : RefreshTokenReplayMarker) : Bool :=
  s.families.any fun f => decide (f.familyId = m.familyId) && f.isCurrent m.tokenHash now

/-- The expired pending markers that are orphaned or inconsistent. -/
def unsettled (now : Date) (s : Database) : List RefreshTokenReplayMarker :=
  s.markers.filter fun m => isExpiredPending now m && !isPreSwap now s m

/-- The expired pre-swap markers that a pass may have to examine before one of the others. -/
def ahead (now : Date) (s : Database) : List RefreshTokenReplayMarker :=
  s.markers.filter fun m => isExpiredPending now m && isPreSwap now s m &&
    (unsettled now s).any fun b => decide (m.leaseKey ≤ b.leaseKey)

/-- The hash that the family holds comes from a rotation that has expired without a commit. -/
def Produced (now : Date) (s : Database) (f : RefreshTokenFamily) : Prop :=
  ∃ m ∈ s.markers, isExpiredPending now m = true ∧ m.familyId = f.familyId ∧
    f.lastRotationOperationId = some m.rotationOperationId ∧ f.currentTokenHash ≠ some m.tokenHash

/-- Passes one after the other, each at its own time, with nothing beside them. -/
inductive PassRuns : List Date → Database → Database → Prop
  | nil {s : Database} : PassRuns [] s s
  | cons {now : Date} {nows : List Date} {s s₁ s' : Database} {l : List (Step Op)}
      {r : Except RefreshFailure ℕ} :
      Traces exec NoFault (runExpiredPendingMarkers now).run s l r s₁ → PassRuns nows s₁ s' →
      PassRuns (now :: nows) s s'

variable {start now : Date} {nows : List Date} {s s₁ s' : Database}
  {m : RefreshTokenReplayMarker} {batch rest held : List RefreshTokenReplayMarker}

theorem isPreSwap_iff : isPreSwap now s m = true ↔
    ∃ f ∈ s.families, f.familyId = m.familyId ∧ f.isCurrent m.tokenHash now = true := by
  simp only [isPreSwap, List.any_eq_true, Bool.and_eq_true, decide_eq_true_eq]

theorem isExpiredPending_iff : isExpiredPending now m = true ↔
    m.status = .pending ∧ ∃ lease, m.leaseExpiresAt = some lease ∧ lease ≤ now := by
  simp only [isExpiredPending, RefreshTokenReplayMarker.leaseExpired, Bool.and_eq_true,
    decide_eq_true_eq]
  cases m.leaseExpiresAt <;> simp

/-- A marker whose lease is no later than that of an expired one has expired too. -/
theorem isExpiredPending_of_le {b : RefreshTokenReplayMarker} (hm : isExpiredPending now m = true)
    (hb : isExpiredPending start b = true) (hle : m.leaseKey ≤ b.leaseKey) :
    isExpiredPending start m = true := by
  obtain ⟨hpending, lease, hlease, -⟩ := isExpiredPending_iff.mp hm
  obtain ⟨-, lease', hlease', hle'⟩ := isExpiredPending_iff.mp hb
  rw [RefreshTokenReplayMarker.leaseKey, RefreshTokenReplayMarker.leaseKey, hlease, hlease'] at hle
  exact isExpiredPending_iff.mpr ⟨hpending, lease, hlease, hle.trans hle'⟩

theorem isCurrent_antitone {f : RefreshTokenFamily} {hash : String} (hle : start ≤ now)
    (h : f.isCurrent hash now = true) : f.isCurrent hash start = true := by
  obtain ⟨hhash, hactive, hlive⟩ := RefreshTokenFamily.isCurrent_iff.mp h
  exact RefreshTokenFamily.isCurrent_iff.mpr ⟨hhash, hactive, hle.trans_lt hlive⟩

theorem isPreSwap_antitone (hle : start ≤ now) (h : isPreSwap now s m = true) :
    isPreSwap start s m = true := by
  obtain ⟨f, hf, hid, hcurrent⟩ := isPreSwap_iff.mp h
  exact isPreSwap_iff.mpr ⟨f, hf, hid, isCurrent_antitone hle hcurrent⟩

theorem kept_of_reachable {ι : Type} [DecidableEq ι] {sha256 : String → String} {ttl : Prop}
    (hsha : Function.Injective sha256) {clock : Date} {cfg : Config ι Call Op Database Reply Event}
    (h : (system sha256 ttl).Reachable (Database.empty clock) cfg) : Kept cfg.store := by
  have hinv := (wellFormed_of_reachable ttl hsha h).inv
  exact ⟨hinv.indexed, hinv.ledger.inactive⟩

/-- What one pass does for the markers that it examines. -/
structure Settles (now : Date) (s : Database) (batch : List RefreshTokenReplayMarker)
    (s' : Database) : Prop where
  found : FindSorted (isExpiredPending now) RefreshTokenReplayMarker.leaseKey
    reconciliationBatchSize s.markers batch
  isBatch : Batch s batch
  spared : Spared s batch s'
  kept : Kept s'
  settled : ∀ m ∈ batch, isPreSwap now s m = false → Finalized s' m

theorem pass_settles {l : List (Step Op)} {r : Except RefreshFailure ℕ} (hs : Kept s)
    (hpass : Traces exec NoFault (runExpiredPendingMarkers now).run s l r s') :
    ∃ batch, Settles now s batch s' := by
  obtain ⟨o, s₁, rest, rfl, hgoes, hrest⟩ := hpass
  cases o with
  | threw b => cases b <;> exact hgoes.1.elim
  | answered batch =>
    obtain ⟨⟨hfound, rfl⟩, -⟩ := hgoes
    have hbatch := batch_of_findSorted hs.indexed hfound
    obtain ⟨s₂, rfl, n, -, hreconciled, hkept, hsettled⟩ :=
      reconcileMarkers_passes hs hbatch 0 _ rfl _ _ _ hrest
    refine ⟨batch, hfound, hbatch, hreconciled.spared, hkept, fun m hm hpre => ?_⟩
    refine hsettled m hm fun hleft => ?_
    rw [isPreSwap_iff.mpr hleft.2] at hpre
    cases hpre

namespace Settles

variable (h : Settles now s batch s')

include h

theorem marker_of_pending (hm : m ∈ s'.markers) (hpending : m.status = .pending) :
    m ∈ s.markers := by
  rcases h.spared.markerFrom m hm with hold | ⟨m', -, -, date, rfl⟩
  · exact hold
  · cases hpending

theorem family_of_active {f : RefreshTokenFamily} (hf : f ∈ s'.families)
    (hactive : f.status = .active) : f ∈ s.families := by
  rcases h.spared.familyFrom f hf with hold | ⟨m, -, hfinal, hid⟩
  · exact hold
  · exact absurd hactive (hfinal.2 f hf hid.symm).1

theorem isPreSwap_of (hpre : isPreSwap start s' m = true) : isPreSwap start s m = true := by
  obtain ⟨f, hf, hid, hcurrent⟩ := isPreSwap_iff.mp hpre
  have hactive := (RefreshTokenFamily.isCurrent_iff.mp hcurrent).2.1
  exact isPreSwap_iff.mpr ⟨f, h.family_of_active hf hactive, hid, hcurrent⟩

/-- What has been settled stays so. -/
theorem finalized (hm : Finalized s m) : Finalized s' m := by
  obtain ⟨⟨date, hcommitted⟩, hover⟩ := hm
  refine ⟨⟨date, (h.spared.marker _ hcommitted).resolve_right fun hin => ?_⟩, hover.spared h.spared⟩
  exact nomatch (h.isBatch.stored _ hin.1).2

end Settles

/-- Markers that are still to be settled, with those that may be examined before them. -/
structure Backlog (start : Date) (s : Database) (rest held : List RefreshTokenReplayMarker) :
    Prop where
  nodup : rest.Nodup
  stored : ∀ m ∈ rest, m ∈ s.markers ∧ isExpiredPending start m = true ∧ isPreSwap start s m = false
  held : ∀ m ∈ s.markers, isExpiredPending start m = true →
    (∃ b ∈ rest, m.leaseKey ≤ b.leaseKey) → m ∈ rest ∨ m ∈ held

namespace Backlog

/-- A pass settles the markers of the backlog that it examines, and leaves the others in it. -/
theorem pass (h : Backlog start s rest held) (hle : start ≤ now) (hpass : Settles now s batch s') :
    (∀ m ∈ rest, m ∈ batch → Finalized s' m) ∧
      Backlog start s' (rest.filter (· ∉ batch)) held := by
  have hsettled : ∀ m ∈ rest, m ∈ batch → Finalized s' m := by
    intro m hm hin
    refine hpass.settled m hin (Bool.eq_false_iff.mpr fun hpre => ?_)
    have hnot := (h.stored m hm).2.2
    rw [isPreSwap_antitone hle hpre] at hnot
    cases hnot
  refine ⟨hsettled, h.nodup.filter _, fun m hm => ?_, fun m hm hexpired hbefore => ?_⟩
  · obtain ⟨hrest, hout⟩ := List.mem_filter.mp hm
    obtain ⟨hstored, hexpired, hnot⟩ := h.stored m hrest
    refine ⟨(hpass.spared.marker m hstored).resolve_right fun hin => ?_, hexpired,
      Bool.eq_false_iff.mpr fun hpre => ?_⟩
    · exact of_decide_eq_true hout hin.1
    · rw [hpass.isPreSwap_of hpre] at hnot
      cases hnot
  · obtain ⟨b, hb, hkey⟩ := hbefore
    have hpending := (isExpiredPending_iff.mp hexpired).1
    rcases h.held m (hpass.marker_of_pending hm hpending) hexpired
      ⟨b, List.mem_of_mem_filter hb, hkey⟩ with hrest | hheld
    · refine .inl (List.mem_filter.mpr ⟨hrest, decide_eq_true fun hin => ?_⟩)
      exact not_finalized hpass.kept.indexed hm hpending (hsettled m hrest hin)
    · exact .inr hheld

/-- A pass that does not reach the end of the backlog has few places for other markers. -/
theorem shrinks (h : Backlog start s rest held) (hpass : Settles now s batch s') (hle : start ≤ now)
    {b : RefreshTokenReplayMarker} (hb : b ∈ rest) (hout : b ∉ batch) :
    (rest.filter (· ∉ batch)).length + reconciliationBatchSize ≤ rest.length + held.length := by
  obtain ⟨hstored, hexpired, -⟩ := h.stored b hb
  obtain ⟨hpending, lease, hlease, hdate⟩ := isExpiredPending_iff.mp hexpired
  have hnow : isExpiredPending now b = true :=
    isExpiredPending_iff.mpr ⟨hpending, lease, hlease, hdate.trans hle⟩
  obtain ⟨hfull, hkeys⟩ := hpass.found.full hstored hnow hout
  -- every marker of the batch is one of the backlog or one of those held up before it
  have hbatch : batch ⊆ rest.filter (· ∈ batch) ++ held := by
    intro m hm
    obtain ⟨hmem, hselected⟩ := hpass.found.mem hm
    have hstart := isExpiredPending_of_le hselected hexpired (hkeys m hm)
    rcases h.held m hmem hstart ⟨b, hb, hkeys m hm⟩ with hrest | hheld
    · exact List.mem_append_left _ (List.mem_filter.mpr ⟨hrest, decide_eq_true hm⟩)
    · exact List.mem_append_right _ hheld
  have hcount : batch.length ≤ (rest.filter (· ∈ batch)).length + held.length := by
    rw [← List.length_append]
    exact (List.subperm_of_subset hpass.isBatch.nodup hbatch).length_le
  have hsplit : rest.length =
      (rest.filter (· ∈ batch)).length + (rest.filter (· ∉ batch)).length := by
    simpa using List.length_eq_length_filter_add (l := rest) (· ∈ batch)
  rw [hfull] at hcount
  omega

end Backlog

namespace PassRuns

/-- What passes do to the markers and families that they find. -/
structure Keeps (s s' : Database) : Prop where
  kept : Kept s'
  finalized : ∀ m, Finalized s m → Finalized s' m
  pending : ∀ m ∈ s'.markers, m.status = .pending → m ∈ s.markers
  active : ∀ f ∈ s'.families, f.status = .active → f ∈ s.families

theorem keeps (hs : Kept s) (h : PassRuns nows s s') : Keeps s s' := by
  induction h with
  | nil => exact ⟨hs, fun _ => id, fun _ hm _ => hm, fun _ hf _ => hf⟩
  | cons hpass _ ih =>
    obtain ⟨batch, hsettles⟩ := pass_settles hs hpass
    have hrest := ih hsettles.kept
    exact ⟨hrest.kept, fun m hm => hrest.finalized m (hsettles.finalized hm),
      fun m hm hpending => hsettles.marker_of_pending (hrest.pending m hm hpending) hpending,
      fun f hf hactive => hsettles.family_of_active (hrest.active f hf hactive) hactive⟩

/-- A backlog is settled by as many passes as the places that are left to it require. -/
theorem drains (hs : Kept s) (h : PassRuns nows s s') (hnows : ∀ now ∈ nows, start ≤ now)
    (hbacklog : Backlog start s rest held)
    (hcount : rest.length ≤ nows.length * (reconciliationBatchSize - held.length)) :
    ∀ m ∈ rest, Finalized s' m := by
  induction h generalizing rest with
  | nil =>
    rw [List.length_nil, Nat.zero_mul, Nat.le_zero, List.length_eq_zero_iff] at hcount
    rw [hcount]
    exact nofun
  | @cons now nows s s₁ s' _ _ hpass hruns ih =>
    obtain ⟨batch, hsettles⟩ := pass_settles hs hpass
    have hle := hnows now List.mem_cons_self
    obtain ⟨hsettled, hleft⟩ := hbacklog.pass hle hsettles
    have hless : (rest.filter (· ∉ batch)).length ≤
        nows.length * (reconciliationBatchSize - held.length) := by
      by_cases hall : ∀ m ∈ rest, m ∈ batch
      · have hempty : rest.filter (· ∉ batch) = [] := by simpa using hall
        rw [hempty]
        exact Nat.zero_le _
      · push Not at hall
        obtain ⟨b, hb, hout⟩ := hall
        have hshrinks := hbacklog.shrinks hsettles hle hb hout
        have hpos := List.length_pos_of_mem hb
        rw [List.length_cons, Nat.succ_mul] at hcount
        rcases Nat.eq_zero_or_pos (reconciliationBatchSize - held.length) with hnone | hsome
        · -- without a place no pass is enough, and there would be nothing to settle
          rw [hnone] at hcount
          omega
        · omega
    have hrest := ih hsettles.kept (fun d hd => hnows d (List.mem_cons_of_mem now hd)) hleft hless
    intro m hm
    by_cases hin : m ∈ batch
    · exact (hruns.keeps hsettles.kept).finalized m (hsettled m hm hin)
    · exact hrest m (List.mem_filter.mpr ⟨hm, decide_eq_true hin⟩)

end PassRuns

theorem backlog_unsettled (hs : s.Indexed) : Backlog start s (unsettled start s) (ahead start s) := by
  have hnodup : s.markers.Nodup := by
    have hhashes : (s.markers.filterMap fun m => some m.tokenHash).Nodup := hs.tokenHash
    rw [List.filterMap_eq_map'] at hhashes
    exact hhashes.of_map
  refine ⟨hnodup.filter _, fun m hm => ?_, fun m hm hexpired hbefore => ?_⟩
  · simpa [unsettled] using hm
  · obtain ⟨b, hb, hkey⟩ := hbefore
    cases hpre : isPreSwap start s m with
    | false => exact .inl (List.mem_filter.mpr ⟨hm, by simp [hexpired, hpre]⟩)
    | true =>
      refine .inr (List.mem_filter.mpr ⟨hm, ?_⟩)
      simp only [hexpired, hpre, Bool.and_self, Bool.true_and, List.any_eq_true,
        decide_eq_true_eq]
      exact ⟨b, hb, hkey⟩

/-- As many passes as the places left beside the pre-swap markers require make an end of every
marker that was orphaned or inconsistent before them, and leave no active family at a hash of a
rotation that had expired without a commit. -/
theorem backlog_drained (hs : Kept s) (hruns : PassRuns nows s s')
    (hnows : ∀ now ∈ nows, start ≤ now)
    (hcount : (unsettled start s).length ≤
      nows.length * (reconciliationBatchSize - (ahead start s).length)) :
    (∀ m ∈ unsettled start s, m ∉ s'.markers ∧ Finalized s' m) ∧
      ∀ f ∈ s'.families, f.status = .active → ¬ Produced start s' f := by
  have hkeeps := hruns.keeps hs
  have hsettled : ∀ m ∈ unsettled start s, m ∉ s'.markers ∧ Finalized s' m := by
    intro m hm
    have hfinal := hruns.drains hs hnows (backlog_unsettled hs.indexed) hcount m hm
    have hpending : m.status = .pending := by
      have hmem := (backlog_unsettled hs.indexed).stored m hm
      exact (isExpiredPending_iff.mp hmem.2.1).1
    exact ⟨fun hin => not_finalized hkeeps.kept.indexed hin hpending hfinal, hfinal⟩
  refine ⟨hsettled, fun f hf hactive hproduced => ?_⟩
  obtain ⟨m, hm, hexpired, hid, -, hhash⟩ := hproduced
  have hpending := (isExpiredPending_iff.mp hexpired).1
  have hstored := hkeeps.pending m hm hpending
  cases hpre : isPreSwap start s m with
  | false =>
    have hmem : m ∈ unsettled start s := List.mem_filter.mpr ⟨hstored, by simp [hexpired, hpre]⟩
    exact (hsettled m hmem).1 hm
  | true =>
    -- the marker was pre-swap from the start, so the active family is still at its hash
    obtain ⟨f', hf', hid', hcurrent⟩ := isPreSwap_iff.mp hpre
    have heq := hs.indexed.familyId.eq (hkeeps.active f hf hactive) hf' (congrArg some hid.symm)
      (congrArg some hid')
    rw [heq] at hhash
    exact hhash (RefreshTokenFamily.isCurrent_iff.mp hcurrent).1

/-- One rotation has stopped before its swap, and a later one between its swap and its commit. -/
theorem backlog_drained_stopped : ∃ cfg : Run,
    (system id True).Reachable (Database.empty 0) cfg ∧ ∃ s', PassRuns [40000] cfg.store s' ∧
      (unsettled 40000 cfg.store).length = 1 ∧ (ahead 40000 cfg.store).length = 1 ∧
      (∀ m ∈ unsettled 40000 cfg.store, m ∉ s'.markers ∧ Finalized s' m) ∧
      ∀ f ∈ s'.families, f.status = .active → ¬ Produced 40000 s' f := by
  have hrun : (after True atRest (signsIn 0 "t0" "f0" ++ signsIn 1 "u0" "g0" ++
      [.start 2 (.rotate "u0" 0), go 2, go 2, draws 2 "p1", go 2, .start 3 (.rotate "t0" 5), go 3, go 3,
        draws 3 "o1", go 3, draws 3 "t1", go 3])
      fun cfg => (passRun 40000 cfg.store).map fun _ =>
        ((unsettled 40000 cfg.store).length, (ahead 40000 cfg.store).length)) =
        some (some (1, 1)) := by
    decide +kernel
  obtain ⟨cfg, hreach, hview⟩ := runs_of_after hrun
  obtain ⟨⟨l, r, s'⟩, hpass, hlengths⟩ := Option.map_eq_some_iff.mp hview
  obtain ⟨hunsettled, hahead⟩ := Prod.mk.inj hlengths
  have hruns : PassRuns [40000] cfg.store s' := .cons (traces_of_passRun hpass) .nil
  refine ⟨cfg, hreach, s', hruns, hunsettled, hahead,
    backlog_drained (kept_of_reachable Function.injective_id hreach) hruns (by simp) ?_⟩
  rw [hunsettled, hahead]
  decide

section Stalled

theorem reconcileMarker_skips (hs : s.Indexed) (hpre : isPreSwap now s m = true) :
    ∃ l, Traces exec NoFault (reconcileMarker now m).run s l (.ok 0) s := by
  obtain ⟨f, hf, hid, hcurrent⟩ := isPreSwap_iff.mp hpre
  have hfound : FindOne (fun f => decide (f.familyId = m.familyId)) s.families (some f) :=
    ⟨hf, decide_eq_true hid⟩
  have hcall : Traces exec NoFault (call (.findFamily m.familyId)).run s
      [⟨.findFamily m.familyId, .answered (some f)⟩] (.ok (some f)) s :=
    ⟨.answered (some f), s, [], rfl, ⟨⟨hfound, rfl⟩, hs⟩, rfl, rfl, rfl⟩
  refine ⟨_ ++ [], Traces.run_tryCatch (hcall.run_bind ?_)⟩
  have hstill : stillCurrent m.tokenHash now (some f) = true := hcurrent
  rw [if_pos hstill]
  exact ⟨rfl, rfl, rfl⟩

/-- A batch of pre-swap markers passes by without a trace. -/
theorem reconcileMarkers_skips (hs : s.Indexed) (hpre : ∀ m ∈ batch, isPreSwap now s m = true)
    (k : ℕ) : ∃ l, Traces exec NoFault (reconcileMarkers now batch k).run s l (.ok k) s := by
  induction batch with
  | nil => exact ⟨[], rfl, rfl, rfl⟩
  | cons m batch ih =>
    obtain ⟨l₁, hfirst⟩ := reconcileMarker_skips hs (hpre m List.mem_cons_self)
    obtain ⟨l₂, hrest⟩ := ih fun m' hm' => hpre m' (List.mem_cons_of_mem m hm')
    exact ⟨l₁ ++ l₂, hfirst.run_bind hrest⟩

theorem pass_stalls (hs : s.Indexed) (hfound : FindSorted (isExpiredPending now)
      RefreshTokenReplayMarker.leaseKey reconciliationBatchSize s.markers batch)
    (hpre : ∀ m ∈ batch, isPreSwap now s m = true) :
    ∃ l, Traces exec NoFault (runExpiredPendingMarkers now).run s l (.ok 0) s := by
  obtain ⟨l, hrest⟩ := reconcileMarkers_skips hs hpre 0
  exact ⟨⟨.findExpiredPending now, .answered batch⟩ :: l,
    .answered batch, s, l, rfl, ⟨⟨hfound, rfl⟩, hs⟩, hrest⟩

def name (i : ℕ) : String := String.ofList (List.replicate i 't')

/-- Family `i`; the hundredth has been rotated without a commit. -/
def heldFamily (i : ℕ) : RefreshTokenFamily where
  familyId := name i
  clientId := "web"
  subjectType := .member
  subjectId := "m1"
  scopes := []
  authVersion := some 0
  status := .active
  currentTokenHash := some (if i < 100 then name i else name (i + 1))
  lastRotationOperationId := if i < 100 then none else some (name i)
  issuedAt := 0
  lastRotatedAt := 0
  expiresAt := 1000
  revokedAt := none
  revokedReason := none

/-- The marker of family `i`; the lease of the hundredth is the last to end. -/
def heldMarker (i : ℕ) : RefreshTokenReplayMarker where
  tokenHash := name i
  familyId := name i
  status := .pending
  rotationOperationId := name i
  leaseExpiresAt := some (if i < 100 then 0 else 1)
  committedAt := none
  expiresAt := 1000

/-- A hundred markers of pre-swap rotations, and that of an orphaned one. -/
def stalled : Database where
  families := (List.range 101).map heldFamily
  markers := (List.range 101).map heldMarker
  clock := 1
  drawn := []

theorem name_injective : Function.Injective name := by
  intro i j h
  simpa [name] using congrArg String.length h

theorem stalled_indexed : stalled.Indexed := by
  have hfamilies : ∀ key : RefreshTokenFamily → Option String, ∀ g : ℕ → ℕ, Function.Injective g →
      (∀ i, key (heldFamily i) = some (name (g i))) → Unique key stalled.families := by
    intro key g hg hkey
    have hcomp : key ∘ heldFamily = fun i => some (name (g i)) := funext hkey
    rw [Documents.Unique, stalled, List.filterMap_map, hcomp, List.filterMap_eq_map']
    exact List.nodup_range.map (name_injective.comp hg)
  have hmarkers : ∀ key : RefreshTokenReplayMarker → Option String,
      (∀ i, key (heldMarker i) = some (name i)) → Unique key stalled.markers := by
    intro key hkey
    have hcomp : key ∘ heldMarker = fun i => some (name i) := funext hkey
    rw [Documents.Unique, stalled, List.filterMap_map, hcomp, List.filterMap_eq_map']
    exact List.nodup_range.map name_injective
  refine ⟨hfamilies _ id Function.injective_id fun _ => rfl,
    hfamilies _ (fun i => if i < 100 then i else i + 1) ?_ fun i => ?_,
    hmarkers _ fun _ => rfl, hmarkers _ fun _ => rfl⟩
  · intro i j h
    grind
  · simp only [heldFamily]
    split <;> rfl

theorem stalled_expired : stalled.markers.filter (isExpiredPending 1) = stalled.markers := by
  rw [List.filter_eq_self]
  intro m hm
  obtain ⟨i, -, rfl⟩ := List.mem_map.mp hm
  exact isExpiredPending_iff.mpr ⟨rfl, _, rfl, by split <;> decide⟩

theorem stalled_findSorted : FindSorted (isExpiredPending 1) RefreshTokenReplayMarker.leaseKey
    reconciliationBatchSize stalled.markers ((List.range 100).map heldMarker) := by
  refine ⟨stalled.markers, by rw [stalled_expired], ?_, ?_⟩
  · rw [stalled, List.pairwise_map]
    refine List.pairwise_lt_range.imp fun {i j} hlt => ?_
    simp only [heldMarker, RefreshTokenReplayMarker.leaseKey, Option.getD_some]
    grind
  · rw [stalled, ← List.map_take, List.take_range]
    rfl

/-- Each pass looks at the same hundred markers, and never at the orphaned one. -/
theorem stalled_passRuns : PassRuns [1, 1] stalled stalled := by
  obtain ⟨l, hpass⟩ := pass_stalls stalled_indexed stalled_findSorted fun m hm => by
    obtain ⟨i, hi, rfl⟩ := List.mem_map.mp hm
    have hlt := List.mem_range.mp hi
    refine isPreSwap_iff.mpr ⟨heldFamily i,
      List.mem_map_of_mem (List.mem_range.mpr (by omega)), rfl, ?_⟩
    exact RefreshTokenFamily.isCurrent_iff.mpr
      ⟨congrArg some (if_pos hlt), rfl, by simp [heldFamily]⟩
  exact .cons hpass (.cons hpass .nil)

theorem stalled_unsettled : heldMarker 100 ∈ unsettled 1 stalled := by
  have hnot : isPreSwap 1 stalled (heldMarker 100) = false := by
    rw [Bool.eq_false_iff]
    intro hpre
    obtain ⟨f, hf, hid, hcurrent⟩ := isPreSwap_iff.mp hpre
    obtain ⟨i, -, rfl⟩ := List.mem_map.mp hf
    obtain rfl : i = 100 := name_injective hid
    simpa using name_injective (Option.some.inj (RefreshTokenFamily.isCurrent_iff.mp hcurrent).1)
  refine List.mem_filter.mpr ⟨List.mem_map_of_mem (by decide), ?_⟩
  rw [hnot]
  decide

/-- Behind a hundred pre-swap markers an orphaned one is not reached; and a marker that a pass has
left pending may have lost its family by the end of it. -/
theorem backlog_not_drained :
    (∃ s s', Kept s ∧ (s.markers.filter (isExpiredPending 1)).length = 101 ∧
      PassRuns [1, 1] s s' ∧ unsettled 1 s' ≠ [] ∧
      ∃ f ∈ s'.families, f.status = .active ∧ Produced 1 s' f) ∧
    ∃ cfg : Run, (system id True).Reachable (Database.empty 0) cfg ∧
      (cfg.store.markers.filter (isExpiredPending 3595000)).length = 2 ∧
      ∃ s', PassRuns [3595000] cfg.store s' ∧ unsettled 3595000 s' ≠ [] := by
  have hlast : heldMarker 100 ∈ stalled.markers := List.mem_map_of_mem (by decide)
  have hfamily : heldFamily 100 ∈ stalled.families := List.mem_map_of_mem (by decide)
  have hproduced : Produced 1 stalled (heldFamily 100) :=
    ⟨heldMarker 100, hlast, by decide, rfl, rfl, fun h => by
      simpa using name_injective (Option.some.inj h)⟩
  refine ⟨⟨stalled, stalled, ⟨stalled_indexed, fun f hf hstatus => ?_⟩,
    by rw [stalled_expired]; rfl, stalled_passRuns, fun hnil => ?_, heldFamily 100, hfamily, rfl,
    hproduced⟩, ?_⟩
  · obtain ⟨i, -, rfl⟩ := List.mem_map.mp hf
    exact absurd rfl hstatus
  · have hmem := stalled_unsettled
    rw [hnil] at hmem
    cases hmem
  · have hrun : overtakes.map (fun result =>
        ((result.2.1.store.markers.filter (isExpiredPending 3595000)).length,
          (unsettled 3595000 result.2.2.2.2).length)) = some (2, 1) := by
      decide +kernel
    obtain ⟨⟨cfg, cfg', l, r, s'⟩, hresult, hview⟩ := Option.map_eq_some_iff.mp hrun
    obtain ⟨hexpired, hunsettled⟩ := Prod.mk.inj hview
    obtain ⟨hreach, hpass⟩ := runs_of_overtakes hresult
    refine ⟨cfg', hreach, hexpired, s', .cons (traces_of_passRun hpass) .nil, fun hnil => ?_⟩
    rw [hnil] at hunsettled
    cases hunsettled

end Stalled

end TokenSession
