import BookLibrary.Operations.Execution
import BookLibrary.Operations.RepairRuns

/-!
# What a completed repair covers

The batches of a repair are cut from its manifest by every call anew, and a batch that is
stored is not cut again. Where the size of the batches differs between the calls, the one
that completes the repair has to find in its batches whatever the earlier cuts have left out.
-/

namespace Operations

open AuthIdentifiers Documents Interleaving

open AuthIdentifierRepairService

namespace RepairPlan

variable {p : RepairPlan} {v : Database} {x : Reassignment}

/-- The repair as its dry run has left it. -/
structure Ready (p : RepairPlan) : Prop where
  indexed : p.start.Indexed
  parent : ∃ d, p.IsParent p.start d ∧ d.requestedBy.subjectId = p.actorId ∧ d.status = .pending
  batches : p.batches p.start = []

theorem Ready.open (h : p.Ready) : ¬ p.Completed p.start := by
  rintro ⟨d, hd, hstatus⟩
  obtain ⟨d', hd', -, hpending⟩ := h.parent
  rw [unique_parent h.indexed hd hd', hpending] at hstatus
  cases hstatus

theorem Ready.progress (h : p.Ready) : p.Progress none p.start := by
  obtain ⟨d, hd, hactor, hpending⟩ := h.parent
  refine ⟨⟨fun _ _ => .inl rfl, fun _ _ => rfl, fun _ _ => .inl rfl⟩, h.indexed, fun _ _ _ => rfl,
    fun hcompleted => absurd hcompleted h.open, fun b hb => ?_, fun b hb => ?_,
    ⟨d, hd, hactor, by simp [hpending]⟩⟩
  · rw [h.batches] at hb
    cases hb
  · rw [h.batches] at hb
    cases hb

/-- The item is in a batch that is activated, and its subject's account and active
reservation carry the new identifier. -/
structure Fulfilled (p : RepairPlan) (v : Database) (x : Reassignment) : Prop where
  batch : ∃ b ∈ v.batches, b.parentOperationId = p.operationId ∧ b.status = .activated ∧
    Belongs b x
  account : Database.carries v x.subjectId x.newIdentifier x.subjectType = true
  reservation : ∃ r ∈ v.identifiers, r.normalizedIdentifier = x.newIdentifier ∧
    r.status = .active ∧ r.subjectType = some x.subjectType ∧ r.subjectId = some x.subjectId

/-- The account that has been reassigned carries the identifier. -/
theorem reassigned_email {identifier : String} {d u : Accounts.StaffUser}
    (h : reassigned identifier (.staffUser d) = .staffUser u) : u.email = identifier := by
  rw [reassigned] at h
  split at h
  · next hemail =>
    cases h
    exact hemail
  · cases h
    rfl

theorem reassigned_loginIdentifier {identifier : String} {d u : Accounts.Member}
    (h : reassigned identifier (.member d) = .member u) : u.loginIdentifier = some identifier := by
  rw [reassigned] at h
  split at h
  · next hlogin =>
    cases h
    exact hlogin
  · cases h
    rfl

theorem Moved.carries (h : p.Moved v x) :
    Database.carries v x.subjectId x.newIdentifier x.subjectType = true := by
  obtain ⟨d, hd, hnow⟩ := h
  have hkey : d.key = accountKey x.subjectType x.subjectId := key_of_find hd
  replace hnow : v.find (accountKey x.subjectType x.subjectId) =
    some (reassigned x.newIdentifier d) := hnow
  cases htype : x.subjectType with
  | staff =>
    rw [htype] at hkey hnow
    obtain ⟨u, hu, heq⟩ := Option.map_eq_some_iff.mp hnow
    obtain ⟨hmem, hid⟩ := mem_of_find hu
    cases d with
    | staffUser d =>
      have hemail := reassigned_email heq.symm
      simp only [Database.carries, List.any_eq_true, Bool.and_eq_true]
      exact ⟨u, hmem, hid, decide_eq_true hemail⟩
    | _ => simp [accountKey, Accounts.Document.key] at hkey
  | member =>
    rw [htype] at hkey hnow
    obtain ⟨u, hu, heq⟩ := Option.map_eq_some_iff.mp hnow
    obtain ⟨hmem, hid⟩ := mem_of_find hu
    cases d with
    | member d =>
      have hlogin := reassigned_loginIdentifier heq.symm
      simp only [Database.carries, List.any_eq_true, Bool.and_eq_true]
      exact ⟨u, hmem, hid, decide_eq_true hlogin⟩
    | _ => simp [accountKey, Accounts.Document.key] at hkey

theorem Activated.active (h : p.Activated v x) :
    ∃ r ∈ v.identifiers, r.normalizedIdentifier = x.newIdentifier ∧
      r.status = .active ∧ r.subjectType = some x.subjectType ∧ r.subjectId = some x.subjectId := by
  obtain ⟨r, hr, hnow⟩ := h
  obtain ⟨hmem, hname⟩ := reservation_mem hnow
  exact ⟨_, hmem, hname, rfl, hr.subject⟩

/-- Whatever is completed has its items fulfilled. -/
theorem Progress.fulfilled (hp : p.Distinct) (h : p.Progress none v) (hcompleted : p.Completed v)
    (hx : x ∈ p.items) : p.Fulfilled v x := by
  obtain ⟨b, hb, hactivated, hbelongs⟩ := (h.finished hcompleted).activated x hx
  obtain ⟨hmoved, hactive⟩ := h.through hp hb (by simp) hactivated hx hbelongs
  obtain ⟨hmem, hparent⟩ := mem_batches.mp hb
  exact ⟨⟨b, hmem, hparent, hactivated, hbelongs⟩, hmoved.carries, hactive.active⟩

variable {ι : Type} [DecidableEq ι] {env : Environment}

/-- A call finds its items covered: it presents the manifest of the dry run, and where it is
not the first to cut a batch of some number, the items of its own cut are in batches that are
activated or will be. -/
structure Finds (env : Environment) (p : RepairPlan) (s : Store) (call : ApplyCall) : Prop where
  presents : Presents env p s.committed call
  covers : p.Covers s.committed call.maxAssignments

/-- Where every call has found the items covered, the repair that is completed has fulfilled
them all. -/
theorem fulfilled_of_turns (hp : p.Distinct) (hready : p.Ready) (hsize : p.size = none)
    {c : Config ι ApplyCall Op Store (Except Failure OfflineRepairResult) Event}
    (hrun : (repairs env p.operationId).Turns (Finds env p) (Config.init (.init p.start)) c)
    (hcompleted : p.Completed c.store.committed) :
    ∀ x ∈ p.items, p.Fulfilled c.store.committed x := by
  intro x hx
  have hprogress : p.Progress none c.store.committed := by
    refine progress_of_turns hp hready.progress (fun s call _ h => ⟨h.presents, ?_, h.covers⟩) hrun
    rw [hsize]
    exact nofun
  exact hprogress.fulfilled hp hcompleted hx

end RepairPlan

section Schedules

open RepairPlan

/-- The repair of `repairRequest`, as its dry run leaves it. -/
def memberRepair (size : Option ℕ) : RepairPlan where
  operationId := repairRequest.operationId
  manifest := repairRequest.manifest
  actorId := Accounts.staffUserId.1
  start := { contested with operations := [
    newParent repairRequest.operationId repairRequest.manifest
      (deployment.hmac (deployment.hkdf "key" AUTH_IDENTIFIER_REPAIR_MANIFEST_SALT "key-version:1")
        (canonicalJson deployment repairRequest.manifest))
      1 Accounts.staffUserId.1 firstId.1 1000] }
  size := size

example : (freeDriver.play (Config.init (.init contested)) dryRuns).map (·.store.committed) =
    some (memberRepair none).start := by decide +kernel

theorem memberRepair_ready (size : Option ℕ) : (memberRepair size).Ready where
  indexed := by
    have h : (memberRepair none).start.Indexed := by decide
    exact h
  parent := ⟨_, ⟨List.mem_cons_self, rfl⟩, rfl, rfl⟩
  batches := rfl

theorem memberRepair_distinct (size : Option ℕ) : (memberRepair size).Distinct where
  subjects := by
    have h : ((memberRepair none).items.map (·.ref)).Nodup := by decide
    exact h
  identifiers := by
    have h : (memberRepair none).identifiers.Nodup := by decide
    exact h

/-- A call with the manifest of the dry run, in batches of that size. -/
def applyCall (maxAssignments : ℕ) : ApplyCall where
  maxAssignments := maxAssignments
  token := "token"
  manifest := repairRequest.manifest
  resumeId := some "resume"

theorem normalizeRepairManifest_applyCall (n : ℕ) :
    normalizeRepairManifest ((applyCall n).environment deployment) (applyCall n).manifest =
      pure repairRequest.manifest := by
  have hsorted : ((repairRequest.manifest.reassignments.map
      (normalizeReassignment deployment)).insertionSort (subjectPrecedes deployment · · = true)) =
      repairRequest.manifest.reassignments := by decide +kernel
  show normalizeRepairManifest deployment repairRequest.manifest = _
  rw [normalizeRepairManifest, hsorted]
  rfl

theorem presents_applyCall {v : Database} {size : Option ℕ} {n : ℕ} :
    Presents deployment (memberRepair size) v (applyCall n) := by
  intro d m _ hm _
  rw [normalizeRepairManifest_applyCall] at hm
  cases hm
  rfl

abbrev RepairRun := Config ℕ ApplyCall Op Store (Except Failure OfflineRepairResult) Event

def repairDriver : Driver (repairs deployment repairRequest.operationId)
    (anyCall : Gate ℕ _ _ _ _) Choice :=
  player.driver _ (fun _ _ _ _ _ _ => true) fun _ => anyCall_pass

/-- The next `n` calls of caller `i`, at that date; new documents are given that id. -/
def repairTurns (n i : ℕ) (date : Date) (id : ObjectId) : List (Move ℕ ApplyCall Choice) :=
  List.replicate n (.reply i ⟨date, id, ⟨false, ""⟩, 0⟩)

/-- The first call prepares a batch of both members and crashes, the second cuts batches of one. -/
def recut : List (Move ℕ ApplyCall Choice) :=
  .start 1 (applyCall 2) :: repairTurns 20 1 1100 firstId ++ repairTurns 12 1 1100 secondId ++
    [.crash 1, .start 2 (applyCall 1)] ++ repairTurns 57 2 1200 ⟨"f20000000000000000000000", by decide⟩

/-- The first call prepares a batch of one member and crashes, the second takes it for one of
both. -/
def outgrown : List (Move ℕ ApplyCall Choice) :=
  .start 1 (applyCall 1) :: repairTurns 28 1 1100 firstId ++
    [.crash 1, .start 2 (applyCall 2)] ++ repairTurns 30 2 1200 secondId

instance {p : RepairPlan} {v : Database} {n : ℕ} : Decidable (p.Covers v n) :=
  inferInstanceAs (Decidable (∀ c ∈ (p.items.toChunks n).zipIdx,
    (∃ b ∈ p.batches v, b.batchNumber = c.2) → ∀ x ∈ c.1, ∃ b ∈ p.batches v,
      (∃ a ∈ b.assignments, a.subjectType = x.subjectType ∧ a.subjectId = x.subjectId) ∧
        (b.status = .activated ∨ b.batchNumber < (p.items.toChunks n).length)))

def checksFinds (s : Store) (call : ApplyCall) : Bool :=
  decide (call = applyCall call.maxAssignments) &&
    decide ((memberRepair none).Covers s.committed call.maxAssignments)

theorem finds_of_checks {s : Store} {call : ApplyCall} (h : checksFinds s call = true) :
    Finds deployment (memberRepair none) s call := by
  simp only [checksFinds, Bool.and_eq_true, decide_eq_true_eq] at h
  refine ⟨?_, h.2⟩
  rw [h.1]
  exact presents_applyCall

/-- The operation and what has become of it, with who carries the identifier he is given. -/
def outcome (c : RepairRun) : List (String × AuthIdentifierOperationStatus) × List Bool :=
  (c.store.committed.operations.map fun d => (d.operationId, d.status),
    repairRequest.manifest.reassignments.map fun x =>
      Database.carries c.store.committed x.subjectId x.newIdentifier x.subjectType)

theorem completed_of_outcome {c : RepairRun} {size : Option ℕ} {carried : List Bool}
    (h : outcome c = ([("repair", .completed)], carried)) :
    (memberRepair size).Completed c.store.committed := by
  have hoperations := (Prod.mk.inj h).1
  obtain ⟨d, hd, heq⟩ := List.mem_map.mp (hoperations ▸ List.mem_singleton_self _)
  obtain ⟨hid, hstatus⟩ := Prod.mk.inj heq
  exact ⟨d, ⟨hd, hid⟩, hstatus⟩

/-- The second call cuts batches of another size, and finds the items covered. -/
theorem fulfilled_recut : ∃ c : RepairRun,
    (repairs deployment "repair").Turns (Finds deployment (memberRepair none))
      (Config.init (.init (memberRepair none).start)) c ∧
    (memberRepair none).Completed c.store.committed ∧
    ∀ x ∈ (memberRepair none).items, (memberRepair none).Fulfilled c.store.committed x := by
  have hrun : (repairDriver.takeTurns checksFinds none
      (Config.init (.init (memberRepair none).start)) recut).map outcome =
      some ([("repair", .completed)], [true, true]) := by decide +kernel
  obtain ⟨c, hplay, houtcome⟩ := Option.map_eq_some_iff.mp hrun
  have hturns := Driver.takeTurns_turns (fun _ _ => finds_of_checks) (fun _ _ => rfl) hplay
  have hcompleted : (memberRepair none).Completed c.store.committed := completed_of_outcome houtcome
  exact ⟨c, hturns, hcompleted, fulfilled_of_turns (memberRepair_distinct none)
    (memberRepair_ready none) rfl hturns hcompleted⟩

/-- A batch of one member is stored when the next call cuts one batch of both: it takes the
batch for its own, and completes the repair without the second member. -/
theorem not_fulfilled_outgrown : ∃ c : RepairRun,
    (repairs deployment "repair").Turns (fun _ call => call = applyCall call.maxAssignments)
      (Config.init (.init (memberRepair none).start)) c ∧
    (memberRepair none).Completed c.store.committed ∧
    ∃ x ∈ (memberRepair none).items, ¬ (memberRepair none).Fulfilled c.store.committed x := by
  have hrun : (repairDriver.takeTurns (fun _ call => decide (call = applyCall call.maxAssignments))
      none (Config.init (.init (memberRepair none).start)) outgrown).map outcome =
      some ([("repair", .completed)], [true, false]) := by decide +kernel
  obtain ⟨c, hplay, houtcome⟩ := Option.map_eq_some_iff.mp hrun
  have hturns := Driver.takeTurns_turns (fun _ _ => of_decide_eq_true) (fun _ _ => rfl) hplay
  refine ⟨c, hturns, completed_of_outcome houtcome, ⟨⟨.member, secondMemberId.1⟩, "olivia-2"⟩,
    List.mem_cons_of_mem _ List.mem_cons_self, fun hfulfilled => ?_⟩
  have hcarries : Database.carries c.store.committed secondMemberId.1 "olivia-2" .member = false :=
    (List.cons.inj (List.cons.inj (Prod.mk.inj houtcome).2).2).1
  rw [hfulfilled.account] at hcarries
  cases hcarries

end Schedules

end Operations
