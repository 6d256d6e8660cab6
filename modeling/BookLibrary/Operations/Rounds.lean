import BookLibrary.Interleaving.Total
import BookLibrary.Operations.Cleanup
import BookLibrary.Operations.Expiry
import Mathlib.Algebra.Order.Floor.Div

/-!
# Cleanup in rounds

Calls of `cleanup` that nobody disturbs, until nothing is left of the gates and the batches of
an operation: how many there are, and what has become of each reservation then.
-/

namespace Operations

open AuthIdentifiers Documents Interleaving

section Answers

variable {v : Database} {s : Store} {β : Type}

theorem write_ne_duplicateKey {w : Write}
    (h : ((Database.unchecked v w).docs.foldr Accounts.Database.put v).Indexed)
    (hne : Database.unchecked v w ≠ .duplicateKey) : schema.write w v ≠ .duplicateKey := by
  have heq : schema.write w v = Database.unchecked v w := if_pos h
  rw [heq]
  exact hne

theorem updateIdentifiers_ne_duplicateKey (hv : v.Indexed) (u : IdentifiersUpdate) :
    schema.write (.updateIdentifiers u) v ≠ .duplicateKey := by
  refine write_ne_duplicateKey ?_ nofun
  have hdocs : (Database.unchecked v (.updateIdentifiers u)).docs =
      ((v.identifiers.filter u.selects).map u.apply).map .identifier := by
    rw [List.map_map]
    rfl
  have hperm := replaceAll_perm (p := u.selects) hv.identifiers u.apply_id
  rw [hdocs, put_identifiers]
  refine { hv with identifiers := ?_, normalizedIdentifier := ?_ }
  · rw [(hperm.map _).nodup_iff, map_updateMany u.apply_id]
    exact hv.identifiers
  · rw [(hperm.map _).nodup_iff, map_updateMany u.apply_normalizedIdentifier]
    exact hv.normalizedIdentifier

theorem expireBatches_ne_duplicateKey (hv : v.Indexed) (ids : List String) (now : Date) :
    schema.write (.expireBatches ids now) v ≠ .duplicateKey := by
  refine write_ne_duplicateKey ?_ nofun
  let f (b : AuthIdentifierRepairBatch) : AuthIdentifierRepairBatch :=
    { b with expiresAt := some now }
  have hdocs : (Database.unchecked v (.expireBatches ids now)).docs =
      ((v.batches.filter fun b => decide (b.id ∈ ids)).map f).map .batch := by
    rw [List.map_map]
    rfl
  have hperm := replaceAll_perm (p := fun b => decide (b.id ∈ ids)) (f := f) hv.batches fun _ => rfl
  rw [hdocs, put_batches]
  refine { hv with batches := ?_, checkpoint := ?_ }
  · rw [(hperm.map _).nodup_iff, map_updateMany (f := f) fun _ => rfl]
    exact hv.batches
  · rw [(hperm.map _).nodup_iff, map_updateMany (f := f) fun _ => rfl]
    exact hv.checkpoint

/-- An update of an operation meets no index, if it leaves its event. -/
theorem updateOperation_ne_duplicateKey (hv : v.Indexed) {u : OperationUpdate}
    (hu : ∀ d, (u.apply d).terminalEventId = d.terminalEventId) :
    schema.write (.updateOperation u) v ≠ .duplicateKey := by
  have hunchecked : Database.unchecked v (.updateOperation u) =
      Accounts.Database.update .operation u.selects u.apply v.operations := rfl
  cases hd : v.operations.find? u.selects with
  | none =>
    rw [Accounts.Database.update, hd] at hunchecked
    refine write_ne_duplicateKey ?_ ?_
    · rw [hunchecked]
      exact hv
    · rw [hunchecked]
      rintro ⟨⟩
  | some d =>
    rw [Accounts.Database.update, hd] at hunchecked
    have hmem := (mem_of_find hd).1
    refine write_ne_duplicateKey ?_ ?_
    · rw [hunchecked]
      show (v.put (.operation (u.apply d))).Indexed
      refine { hv with operations := ?_, operationId := ?_, terminalEvent := ?_ }
      · exact nodup_replaceOne hv.operations
      · exact nodup_map_replaceOne hv.operationId hmem (u.apply_id d).symm (u.apply_operationId d)
      · exact hv.terminalEvent.replaceOne hmem (u.apply_id d).symm (hu d)
    · rw [hunchecked]
      rintro ⟨⟩

open AuthIdentifierReconciliationService

variable {α : Type} {env : Environment} {owner : String} {d : AuthIdentifierOperation}
  {R : Except Failure α → Store → Prop}

theorem findOwn_total {q : OperationQuery β} {f : β → Handler α}
    (hanswer : ∃ b, Database.answersOperation β q s.committed b)
    (hf : ∀ b, Database.answersOperation β q s.committed b →
      (f b).run.Total (Sessions.Op.exec schema) R s) :
    (findOwn none q >>= f).run.Total (Sessions.Op.exec schema) R s := by
  refine .run_perform (fun _ => rfl) ?_ ?_
  · obtain ⟨b, hb⟩ := hanswer
    exact ⟨b, s, ⟨s.committed, rfl, hb⟩, rfl⟩
  · rintro b s₁ ⟨⟨v, hv, hb⟩, rfl⟩
    cases hv
    exact hf b hb

theorem draw_total {x : Accounts.Draw β} {f : β → Handler α} (b : β)
    (hf : ∀ b, (f b).run.Total (Sessions.Op.exec schema) R s) :
    (draw x >>= f).run.Total (Sessions.Op.exec schema) R s := by
  refine .run_perform (fun _ => rfl) ⟨b, s, rfl⟩ ?_
  intro b s₁ hs
  obtain rfl : s₁ = s := hs
  exact hf b

/-- A write that meets no index is applied. -/
theorem write_total {w : Write} {f : List Document → Handler α}
    (hne : schema.write w s.committed ≠ .duplicateKey)
    (hf : ∀ s₁ : Store, s₁.committed = schema.wrote w s.committed →
      (f (schema.write w s.committed).docs).run.Total (Sessions.Op.exec schema) R s₁) :
    (write none w >>= f).run.Total (Sessions.Op.exec schema) R s := by
  rw [write, bind_assoc]
  refine .run_perform (fun _ => rfl) ⟨_, _, rfl, rfl⟩ ?_
  rintro r s₁ ⟨rfl, hs₁⟩
  have hnext := hf s₁ (hs₁ ▸ rfl)
  cases hr : schema.write w s.committed with
  | written docs =>
    rw [hr] at hnext
    exact hnext
  | unmatched =>
    rw [hr] at hnext
    exact hnext
  | duplicateKey => exact absurd hr hne

theorem updateOperation_total {u : OperationUpdate} {f : Bool → Handler α}
    (hne : schema.write (.updateOperation u) s.committed ≠ .duplicateKey)
    (hf : ∀ b (s₁ : Store), s₁.committed = schema.wrote (.updateOperation u) s.committed →
      (f b).run.Total (Sessions.Op.exec schema) R s₁) :
    (updateOperation none u >>= f).run.Total (Sessions.Op.exec schema) R s := by
  rw [updateOperation, bind_assoc]
  exact write_total hne fun s₁ hs₁ => hf _ s₁ hs₁

theorem findLimited_exists {D : Type} (p : D → Bool) (limit : ℕ) (docs : List D) :
    ∃ batch, FindLimited p limit docs batch := ⟨_, _, .refl _, rfl⟩

theorem expire_total {limit n : ℕ} {operationId : String} {K : Handler Unit}
    (hK : ∀ s₁ : Store, s₁.committed.Indexed → K.run.Total (Sessions.Op.exec schema)
      (fun r _ => r = .ok ()) s₁) (hs : s.committed.Indexed) :
    (if n < limit then do
      let batches ← findOwn none (.listOpenBatches operationId (limit - n))
      if ¬ batches.isEmpty then do
        let now ← draw .currentDate
        let _ ← write none (.expireBatches (batches.map (·.id)) now)
        K
      else K
    else K : Handler Unit).run.Total (Sessions.Op.exec schema) (fun r _ => r = .ok ()) s := by
  refine .run_ite (fun _ => findOwn_total (findLimited_exists _ _ _) fun batches _ => ?_)
    fun _ => hK s hs
  refine .run_ite (fun _ => draw_total 0 fun now => ?_) fun _ => hK s hs
  refine write_total (expireBatches_ne_duplicateKey hs _ _) fun s₁ hs₁ => ?_
  exact hK s₁ (hs₁ ▸ wrote_indexed hs _)

/-- A call of `cleanup` comes to its end, whichever gates and batches its queries list. -/
theorem cleanup_total (env : Environment) (owner : String) (d : AuthIdentifierOperation)
    (hs : s.committed.Indexed) :
    (cleanup env owner d).run.Total (Sessions.Op.exec schema) (fun r _ => r = .ok ()) s := by
  rw [cleanup]
  refine findOwn_total (findLimited_exists _ _ _) fun gated _ => ?_
  -- what follows the gates and the batches
  have hlast : ∀ s₁ : Store, s₁.committed.Indexed →
      (do
        let _ ← renewLease env owner d.operationId
        let gateRemaining ← findOwn none (.anyGated d)
        let batchRemaining ← findOwn none (.anyOpenBatch d.operationId)
        if gateRemaining || batchRemaining then return
        else do
          let now ← draw .currentDate
          let _ ← updateOperation none (.finishCleanup d.operationId owner now
            (now + days env.retentionDays)) : Handler Unit).run.Total (Sessions.Op.exec schema)
        (fun r _ => r = .ok ()) s₁ := by
    intro s₁ hs₁
    rw [renewLease, bind_assoc]
    refine draw_total 0 fun now =>
      updateOperation_total (updateOperation_ne_duplicateKey hs₁ fun _ => rfl) fun _ s₂ hs₂ => ?_
    have hindexed : s₂.committed.Indexed := hs₂ ▸ wrote_indexed hs₁ _
    refine findOwn_total ⟨_, rfl⟩ fun _ _ => findOwn_total ⟨_, rfl⟩ fun _ _ => ?_
    refine .run_ite (fun _ => rfl) fun _ => draw_total 0 fun now => ?_
    exact updateOperation_total (updateOperation_ne_duplicateKey hindexed fun _ => rfl)
      fun _ _ _ => rfl
  refine .run_ite (fun _ => ?_) fun _ => expire_total hlast hs
  refine write_total (updateIdentifiers_ne_duplicateKey hs _) fun s₁ hs₁ => ?_
  exact expire_total hlast (hs₁ ▸ wrote_indexed hs _)

end Answers

/-- If the operation has ended, it has been told of. -/
def Announced (d : AuthIdentifierOperation) : Prop :=
  d.status.isTerminal = true →
    d.terminalEventId.isSome = true ∧ d.terminalEventRecordedAt.isSome = true

theorem announced_of_warranted {env : Environment} {inputs : OperationInput → Prop}
    {l : List Event} {session : Option ℕ} {u : OperationUpdate} {d : AuthIdentifierOperation}
    (hw : Warranted env inputs l session (.updateOperation u)) (hd : Announced d) :
    Announced (u.apply d) := by
  intro hterminal
  cases hw with
  | aggregate hw => cases hw
  | quiet hquiet =>
    rw [OperationUpdate.apply_status_of_isQuiet hquiet] at hterminal
    cases u <;> first | exact hd hterminal | cases hquiet
  | transition _ hopen =>
    rcases hopen with rfl | rfl | rfl <;> cases hterminal
  | recoverTransition _ _ htarget =>
    rcases htarget with ⟨-, hopen⟩ | ⟨rfl, -⟩
    · exact absurd (hopen.symm.trans hterminal) (by decide)
    · cases hterminal
  | moveStatus _ htarget => exact absurd (htarget.symm.trans hterminal) (by decide)
  | finishTerminal | finalize | finishRepair => exact ⟨rfl, rfl⟩
  | finishCleanup => exact hd hterminal
  | beginFinalizing | startApplying => cases hterminal

section Runs

variable {A ι : Type} [DecidableEq ι] {env : Environment} {aggregates : A → Aggregate}
  {s₀ : Database} {c : Config ι (Call A) Op Store Response Event}

theorem announced_step {s s' : Store} {J : List (Entry ι (Call A) Event)} {i : ι} {call : Call A}
    {β : Type} {op : Op β} {x : Option β} (hJ : Journaled env s J)
    (h : Sessions.Everywhere schema (fun v => ∀ d ∈ v.operations, Announced d) s)
    (hlegal : Legal env call.inputs (own i J) op)
    (heff : Sessions.Effect schema seen s op x (op.note seen β x) s') :
    Sessions.Everywhere schema (fun v => ∀ d ∈ v.operations, Announced d) s' := by
  refine h.step heff (fun session w v hx hw hv hall d hd => ?_)
    fun n t _ _ ht hfree hindexed d hd => ?_
  · rcases operation_of_warranted (hlegal.warranted _ _ hw) (hJ.ledger.view_indexed hv) hd with
      hold | rfl | ⟨u, y, rfl, hy, hu, rfl⟩
    · exact hall d hold
    · intro hterminal
      cases hlegal.warranted _ _ hw with
      | aggregate hw => cases hw
      | create => cases hterminal
      | createParent => cases hterminal
    · exact announced_of_warranted (hlegal.warranted _ _ hw) (hall y hy)
  · rcases operation_of_commit hfree hindexed hd with hold | ⟨hview, -⟩
    · exact h.committed d hold
    · exact h.views n t ht d hview

/-- In every run, what has ended has been told of. -/
theorem announced_of_runs (hs : s₀.Indexed) (h₀ : ∀ d ∈ s₀.operations, Announced d)
    (hrun : (operations env aggregates).Runs anyCall (Config.init (.init s₀)) c) :
    c.store.committed.Indexed ∧ ∀ d ∈ c.store.committed.operations, Announced d := by
  have w : WellFormed (contract ι env aggregates) c := (wellFormed_init hs).runs hrun
  have h : Sessions.Everywhere schema (fun v => ∀ d ∈ v.operations, Announced d) c.store :=
    (wellFormed_init hs).runs_induct (P := fun s _ => Sessions.Everywhere schema
      (fun v => ∀ d ∈ v.operations, Announced d) s)
      (fun {_ _ _ _ _ _ _ _ _} hJ h _ hlegal _ heff =>
        announced_step hJ h hlegal (Sessions.effect_of_applies heff))
      (fun _ h henv => henv ▸ h) hrun ⟨h₀, fun n t ht => by cases ht⟩
  exact ⟨of_decide_eq_true w.inv.ledger.indexed, h.committed⟩

end Runs

section Rounds

open AuthIdentifierReconciliationService

variable {env : Environment} {owner : String} {d d' d₁ d₂ : AuthIdentifierOperation}
  {v v' v₁ v₂ v₃ : Database} {k : ℕ}

/-- The instance has the lease of the operation; nobody has touched the reservations, the
batches or anything else of the operation. -/
structure Leases (owner : String) (v : Database) (d : AuthIdentifierOperation) (v' : Database)
    (d' : AuthIdentifierOperation) : Prop where
  indexed : v'.Indexed
  identifiers : v'.identifiers = v.identifiers
  batches : v'.batches = v.batches
  stored : d' ∈ v'.operations
  lease : ∃ leaseExpiresAt updatedAt,
    d' = { d with
      leaseOwner := some owner
      leaseExpiresAt := leaseExpiresAt
      updatedAt := updatedAt }

/-- A call of `cleanup` on its own, of which no call fails, takes the store `v` to `v'`. -/
def CleansUp (env : Environment) (owner : String) (d : AuthIdentifierOperation)
    (v v' : Database) : Prop :=
  ∃ (s s' : Store) (l : List (Step Op)) (r : Except Failure Unit), s.committed = v ∧
    Traces (Sessions.Op.exec schema) Unfailing (cleanup env owner d).run s l r s' ∧
    s'.committed = v'

/-- Undisturbed calls in a row, each by an instance that has the lease, with the operation as
it is stored after them. -/
inductive Rounds (env : Environment) (v : Database) (d : AuthIdentifierOperation) :
    ℕ → Database → AuthIdentifierOperation → Prop where
  | start : Rounds env v d 0 v d
  | call {k : ℕ} {owner : String} {v₁ v₂ v₃ : Database} {d₁ d₂ d₃ : AuthIdentifierOperation}
      (hrounds : Rounds env v d k v₁ d₁) (hlease : Leases owner v₁ d₁ v₂ d₂)
      (hcall : CleansUp env owner d₂ v₂ v₃) (hstored : d₃ ∈ v₃.operations)
      (hid : d₃.operationId = d₂.operationId) : Rounds env v d (k + 1) v₃ d₃

theorem CleansUp.cleans (h : CleansUp env owner d v v') (hv : v.Indexed) :
    Cleans env.identifierMaxOperationAssignments owner d v v' := by
  obtain ⟨s, s', l, r, rfl, htrace, rfl⟩ := h
  have hok : r = .ok () := (cleanup_total env owner d hv).of_traces htrace
  subst hok
  have hbounded : Bounded env.identifierMaxOperationAssignments d s.committed s.committed :=
    ⟨hv, .refl _ _, Nat.le_add_right _ _⟩
  have hguards := cleanup_yields env owner d s.committed hv s ⟨hbounded, rfl⟩
  obtain ⟨v', ⟨-, hv'⟩, hcleans⟩ := (hguards.traces hbounded (Traces.mono htrace)).2
  have heq : s'.committed = v' := hv'
  rw [heq]
  exact hcleans () rfl

theorem exists_cleansUp (env : Environment) (owner : String) (d : AuthIdentifierOperation)
    (hv : v.Indexed) : ∃ v', CleansUp env owner d v v' := by
  have htotal : (cleanup env owner d).run.Total (Sessions.Op.exec schema) (fun r _ => r = .ok ())
      (.init v) := cleanup_total env owner d hv
  obtain ⟨l, r, s', htrace⟩ := htotal.exists_traces
  exact ⟨_, .init v, s', l, r, rfl, htrace, rfl⟩

/-- How many calls it takes until nothing is left. -/
def rounds (m : ℕ) (d : AuthIdentifierOperation) (v : Database) : ℕ := max 1 (left d v ⌈/⌉ m)

theorem rounds_le_iff {m : ℕ} (hm : 0 < m) : rounds m d v ≤ k ↔ 1 ≤ k ∧ left d v ≤ k * m := by
  rw [rounds, max_le_iff, ceilDiv_le_iff_le_smul hm, smul_eq_mul, Nat.mul_comm]

/-- What `k` calls have made of the store `v` and the operation `d`. -/
structure Progressed (m : ℕ) (v : Database) (d : AuthIdentifierOperation) (k : ℕ) (v' : Database)
    (d' : AuthIdentifierOperation) : Prop where
  indexed : v'.Indexed
  cleaned : Cleaned d v v'
  left_eq : left d v' = left d v - k * m
  stored : d' ∈ v'.operations
  operationId : d'.operationId = d.operationId
  status : d'.status = d.status
  event : d'.terminalEventId = d.terminalEventId
  recordedAt : d'.terminalEventRecordedAt = d.terminalEventRecordedAt
  finished : rounds m d v ≤ k → d'.cleanupStatus = .completed ∧ d'.expiresAt.isSome = true
  unfinished : k < rounds m d v → d'.cleanupStatus = .pending ∧ d'.expiresAt = d.expiresAt

theorem Progressed.start {m : ℕ} (hm : 0 < m) (hv : v.Indexed) (hd : d ∈ v.operations)
    (hpending : d.cleanupStatus = .pending) : Progressed m v d 0 v d where
  indexed := hv
  cleaned := .refl d v
  left_eq := by omega
  stored := hd
  operationId := rfl
  status := rfl
  event := rfl
  recordedAt := rfl
  finished h := by
    have hone := ((rounds_le_iff hm).mp h).1
    omega
  unfinished _ := ⟨hpending, rfl⟩

/-- One call more. -/
theorem Progressed.call {m : ℕ} {d₃ : AuthIdentifierOperation} (hm : 0 < m)
    (hterminal : d.status ∈ TERMINAL_STATUSES) (hevent : d.terminalEventId.isSome = true)
    (hrecorded : d.terminalEventRecordedAt.isSome = true) (h : Progressed m v d k v₁ d₁)
    (hlease : Leases owner v₁ d₁ v₂ d₂) (hcleans : Cleans m owner d₂ v₂ v₃)
    (hstored : d₃ ∈ v₃.operations) (hid : d₃.operationId = d₂.operationId) :
    Progressed m v d (k + 1) v₃ d₃ := by
  obtain ⟨leaseExpiresAt, updatedAt, hd₂⟩ := hlease.lease
  have hoperation : d₂.operationId = d.operationId := by
    rw [hd₂]
    exact h.operationId
  have hstatus : d₂.status = d.status := by
    rw [hd₂]
    exact h.status
  have hleft₂ : left d₂ v₂ = left d v - k * m := by
    rw [left_congr hoperation, left, hlease.identifiers, hlease.batches]
    exact h.left_eq
  have hleft : left d v₃ = left d v - (k + 1) * m := by
    have hadd := hcleans.left_add
    rw [hleft₂, left_congr hoperation] at hadd
    rw [Nat.add_mul, Nat.one_mul]
    omega
  -- what the call makes of the operation
  obtain ⟨x, hx, hfinishes, hrenews⟩ := hcleans.operation hlease.stored
  have hdone : left d₂ v₃ = 0 ↔ rounds m d v ≤ k + 1 := by
    rw [left_congr hoperation, hleft, rounds_le_iff hm]
    omega
  have hfinishable : Finishable owner d₂ ↔ k < rounds m d v := by
    constructor
    · intro hf
      by_contra hlt
      have hpending := hf.pending
      rw [hd₂, (h.finished (Nat.not_lt.mp hlt)).1] at hpending
      cases hpending
    · intro hlt
      refine ⟨hstatus ▸ hterminal, ?_, ?_, ?_, ?_⟩
      · rw [hd₂]
        exact (h.unfinished hlt).1
      · rw [hd₂]
        exact h.event ▸ hevent
      · rw [hd₂]
        exact h.recordedAt ▸ hrecorded
      · rw [hd₂]
  have hkept : x.operationId = d₂.operationId ∧ x.status = d₂.status ∧
      x.terminalEventId = d₂.terminalEventId ∧
      x.terminalEventRecordedAt = d₂.terminalEventRecordedAt := by
    by_cases hf : left d₂ v₃ = 0 ∧ Finishable owner d₂
    · obtain ⟨_, _, _, rfl⟩ := hfinishes hf
      exact ⟨rfl, rfl, rfl, rfl⟩
    · obtain ⟨_, _, rfl⟩ := hrenews hf
      exact ⟨rfl, rfl, rfl, rfl⟩
  obtain rfl : d₃ = x := eq_of_key hcleans.indexed.operationId hstored hx (hid.trans hkept.1.symm)
  have hexpires : d₂.cleanupStatus = d₁.cleanupStatus ∧ d₂.expiresAt = d₁.expiresAt := by
    rw [hd₂]
    exact ⟨rfl, rfl⟩
  have hevents : d₂.terminalEventId = d₁.terminalEventId ∧
      d₂.terminalEventRecordedAt = d₁.terminalEventRecordedAt := by
    rw [hd₂]
    exact ⟨rfl, rfl⟩
  refine ⟨hcleans.indexed, ?_, hleft, hstored, hid.trans hoperation, hkept.2.1.trans hstatus,
    hkept.2.2.1.trans (hevents.1.trans h.event), hkept.2.2.2.trans (hevents.2.trans h.recordedAt),
    fun hrounds => ?_, fun hlt => ?_⟩
  · have hcleaned := hcleans.cleaned.congr hoperation.symm hstatus.symm
    refine h.cleaned.trans ⟨?_, ?_⟩
    · rw [← hlease.identifiers]
      exact hcleaned.identifiers
    · rw [← hlease.batches]
      exact hcleaned.batches
  · by_cases hbefore : rounds m d v ≤ k
    · -- the operation was finished before
      obtain ⟨_, _, hrenewed⟩ := hrenews fun hf => Nat.not_lt.mpr hbefore (hfinishable.mp hf.2)
      rw [hrenewed]
      show d₂.cleanupStatus = .completed ∧ d₂.expiresAt.isSome = true
      rw [hexpires.1, hexpires.2]
      exact h.finished hbefore
    · obtain ⟨_, _, _, hfinished⟩ :=
        hfinishes ⟨hdone.mpr hrounds, hfinishable.mpr (Nat.not_le.mp hbefore)⟩
      rw [hfinished]
      exact ⟨rfl, rfl⟩
  · obtain ⟨_, _, hrenewed⟩ := hrenews fun hf => Nat.not_lt.mpr (hdone.mp hf.1) hlt
    rw [hrenewed]
    show d₂.cleanupStatus = .pending ∧ d₂.expiresAt = d.expiresAt
    rw [hexpires.1, hexpires.2]
    exact h.unfinished (Nat.lt_of_succ_lt hlt)

theorem Rounds.progressed {m : ℕ} (hm : 0 < m) (henv : env.identifierMaxOperationAssignments = m)
    (hv : v.Indexed) (hd : d ∈ v.operations) (hterminal : d.status ∈ TERMINAL_STATUSES)
    (hpending : d.cleanupStatus = .pending) (hevent : d.terminalEventId.isSome = true)
    (hrecorded : d.terminalEventRecordedAt.isSome = true) (h : Rounds env v d k v' d') :
    Progressed m v d k v' d' := by
  induction h with
  | start => exact .start hm hv hd hpending
  | call hrounds hlease hcall hstored hid ih =>
    have hcleans := hcall.cleans hlease.indexed
    rw [henv] at hcleans
    exact ih.call hm hterminal hevent hrecorded hlease hcleans hstored hid

theorem mem_terminal {status : AuthIdentifierOperationStatus} (h : status.isTerminal = true) :
    status ∈ TERMINAL_STATUSES := by
  cases status with
  | completed | failedTerminal => decide
  | _ => cases h

/-- Wherever a call of `cleanup` stops, and whatever fails, no more reservations and batches
have been touched than an operation may have assignments. -/
theorem cleanup_touches (env : Environment) (owner : String) (d : AuthIdentifierOperation)
    {s : Store} (hs : s.committed.Indexed) :
    Guards (Sessions.Op.exec schema) (Sessions.Op.fallible drawFails)
      (fun s' => touched s.committed s'.committed ≤ env.identifierMaxOperationAssignments)
      (fun _ _ => True) (cleanup env owner d).run s := by
  have hbounded : Bounded env.identifierMaxOperationAssignments d s.committed s.committed :=
    ⟨hs, .refl _ _, Nat.le_add_right _ _⟩
  have hguards := (cleanup_yields env owner d s.committed hs).guards (R := fun _ _ => True)
    ⟨hbounded, rfl⟩ fun _ _ => trivial
  refine hguards.weaken fun s' hs' => ?_
  have htouched := hs'.cleaned.touched_add
  have hleft := hs'.left_le
  omega

section Runs

variable {A ι : Type} [DecidableEq ι] {aggregates : A → Aggregate} {s₀ : Database}
  {c : Config ι (Call A) Op Store Response Event}

/-- In every run, of an operation that has ended and waits for its cleanup: a call settles no
more gates and batches than the bound allows, and comes to its end if no call of it fails;
after `k` undisturbed calls there are left as many as `k` times the bound does not cover, and
the operation is finished after as many calls as it takes, not before. -/
theorem cleanup_settles (hs : s₀.Indexed) (h₀ : ∀ d ∈ s₀.operations, Announced d)
    (hrun : (operations env aggregates).Runs anyCall (Config.init (.init s₀)) c)
    (hm : 1 ≤ env.identifierMaxOperationAssignments) (hd : d ∈ c.store.committed.operations)
    (hterminal : d.status.isTerminal = true) (hpending : d.cleanupStatus = .pending) :
    (∀ (owner : String) (x : AuthIdentifierOperation) (s : Store), s.committed.Indexed →
      Guards (Sessions.Op.exec schema) (Sessions.Op.fallible drawFails)
        (fun s' => touched s.committed s'.committed ≤ env.identifierMaxOperationAssignments)
        (fun _ _ => True) (cleanup env owner x).run s ∧
      (cleanup env owner x).run.Total (Sessions.Op.exec schema) (fun r _ => r = .ok ()) s) ∧
    ∀ k v' d', Rounds env c.store.committed d k v' d' →
      left d v' = left d c.store.committed - k * env.identifierMaxOperationAssignments ∧
      (∀ r ∈ c.store.committed.identifiers, r ∈ v'.identifiers ∨
        r.activationGateOperationId = some d.operationId ∧
        { r with
          status := if d.status = .failedTerminal then .released else r.status
          activationGateOperationId := none } ∈ v'.identifiers) ∧
      (rounds env.identifierMaxOperationAssignments d c.store.committed ≤ k →
        (∀ r ∈ v'.identifiers, r.activationGateOperationId ≠ some d.operationId) ∧
        (∀ b ∈ v'.batches, b.parentOperationId = d.operationId → b.expiresAt.isSome = true) ∧
        d'.cleanupStatus = .completed ∧ d'.expiresAt.isSome = true) ∧
      (k < rounds env.identifierMaxOperationAssignments d c.store.committed →
        d'.cleanupStatus = .pending ∧ d'.expiresAt = d.expiresAt) := by
  obtain ⟨hindexed, hannounced⟩ := announced_of_runs hs h₀ hrun
  obtain ⟨hevent, hrecorded⟩ := hannounced d hd hterminal
  refine ⟨fun owner x s hs => ⟨cleanup_touches env owner x hs, cleanup_total env owner x hs⟩,
    fun k v' d' hrounds => ?_⟩
  have h := hrounds.progressed hm rfl hindexed hd (mem_terminal hterminal) hpending hevent hrecorded
  refine ⟨h.left_eq, fun r hr => ?_, fun hk => ?_, h.unfinished⟩
  · rcases h.cleaned.identifiers.kept hr with hkept | ⟨r', hr', hgated, rfl⟩
    · exact .inl hkept
    · exact .inr ⟨of_decide_eq_true hgated, hr'⟩
  · have hzero : left d v' = 0 := by
      rw [h.left_eq]
      have hcovered := ((rounds_le_iff hm).mp hk).2
      omega
    obtain ⟨hgates, hbatches⟩ := left_eq_zero.mp hzero
    refine ⟨fun r hr hgated => ?_, fun b hb hparent => ?_, h.finished hk⟩
    · exact List.any_eq_false.mp hgates r hr (decide_eq_true hgated)
    · have hopen := List.any_eq_false.mp hbatches b hb
      simpa [Database.isOpenBatchOf, hparent, Option.isSome_iff_ne_none] using hopen

end Runs

section Schedules

/-- A repair that has been completed, its lease held by a pass. -/
def completedParent : AuthIdentifierOperation :=
  { AuthIdentifierRepairService.newParent "repair" smallRepair.manifest "hash" 1
      Accounts.staffUserId.1 firstId.1 0 with
    status := .completed
    leaseOwner := some "pass"
    leaseExpiresAt := some 1000
    terminalEventId := some "event"
    terminalEventRecordedAt := some 0
    cleanupStatus := .pending }

/-- The repair gates one reservation. -/
def gating : Database :=
  { Accounts.Database.reserved [
      { Accounts.reservation conflictId.1 "olivia-2" .active (.member, secondMemberId.1) with
        activationGateOperationId := some "repair" }] with
    operations := [completedParent] }

theorem gating_indexed : gating.Indexed := by decide

theorem announced_gating : ∀ d ∈ gating.operations, Announced d := by
  intro d hd _
  obtain rfl := List.mem_singleton.mp hd
  exact ⟨rfl, rfl⟩

/-- One call is enough. -/
theorem cleanup_settles_gating : ∃ v' d', Rounds deployment gating completedParent 1 v' d' ∧
    d'.cleanupStatus = .completed ∧
    ∀ r ∈ v'.identifiers, r.activationGateOperationId ≠ some "repair" := by
  obtain ⟨v', hcall⟩ := exists_cleansUp deployment "pass" completedParent gating_indexed
  obtain ⟨d', hd', hid⟩ : ∃ d' ∈ v'.operations, d'.operationId = completedParent.operationId := by
    obtain ⟨d', hd', hfinishes, hrenews⟩ :=
      (hcall.cleans gating_indexed).operation (List.mem_singleton_self _)
    refine ⟨d', hd', ?_⟩
    by_cases h : left completedParent v' = 0 ∧ Finishable "pass" completedParent
    · obtain ⟨_, _, _, rfl⟩ := hfinishes h
      rfl
    · obtain ⟨_, _, rfl⟩ := hrenews h
      rfl
  have hrounds : Rounds deployment gating completedParent 1 v' d' :=
    .call .start ⟨gating_indexed, rfl, rfl, List.mem_singleton_self _, _, _, rfl⟩ hcall hd' hid
  have hrun : (operations deployment noAggregates).Runs anyCall
      (Config.init (.init gating) : Run) (Config.init (.init gating)) := .refl
  have hsettled := ((cleanup_settles gating_indexed announced_gating hrun (by decide)
    (List.mem_singleton_self _) rfl rfl).2 1 v' d' hrounds).2.2.1
    ((rounds_le_iff (by decide)).mpr (by decide))
  exact ⟨v', d', hrounds, hsettled.2.2.1, hsettled.1⟩

/-- The record of the operation itself is one more document that the call writes. -/
theorem cleanup_touches_operation : ∃ v', CleansUp deployment "pass" completedParent gating v' ∧
    deployment.identifierMaxOperationAssignments <
      touched gating v' + gating.operations.countP fun d => decide (d ∉ v'.operations) := by
  obtain ⟨v', hcall⟩ := exists_cleansUp deployment "pass" completedParent gating_indexed
  have hcleans := hcall.cleans gating_indexed
  have hleft : left completedParent gating = 1 := by decide
  have hadd := hcleans.left_add
  have htouched := hcleans.cleaned.touched_add
  rw [hleft] at hadd htouched
  have hmax : deployment.identifierMaxOperationAssignments = 1 := rfl
  rw [hmax] at hadd
  refine ⟨v', hcall, ?_⟩
  have hfinishable : Finishable "pass" completedParent :=
    ⟨by decide, rfl, rfl, rfl, rfl⟩
  obtain ⟨d', hd', hfinishes, -⟩ := hcleans.operation (List.mem_singleton_self _)
  obtain ⟨_, _, _, hfinished⟩ := hfinishes ⟨by omega, hfinishable⟩
  have hgone : completedParent ∉ v'.operations := by
    intro hmem
    have hid : d'.operationId = completedParent.operationId := by
      rw [hfinished]
    have heq := eq_of_key hcleans.indexed.operationId hd' hmem hid
    have hcompleted : d'.cleanupStatus = .completed := by rw [hfinished]
    rw [heq] at hcompleted
    cases hcompleted
  have hcount : gating.operations.countP (fun d => decide (d ∉ v'.operations)) = 1 := by
    show List.countP (fun d => decide (d ∉ v'.operations)) [completedParent] = 1
    rw [List.countP_singleton, if_pos (decide_eq_true hgone)]
  rw [hmax, hcount]
  omega

end Schedules

end Rounds

end Operations
