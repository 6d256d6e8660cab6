import BookLibrary.Operations.Coverage
import BookLibrary.SignIn.Execution
import BookLibrary.SignIn.Gate

/-!
# A repair that is taken up again

However often a repair is interrupted and taken up again, where its batches keep their size
it ends as if it had been done in one go, and until then nobody signs in with any of the
identifiers it is about.
-/

namespace Operations

open AuthIdentifiers Documents Interleaving

open AuthIdentifierRepairService

/-- The account with its new identifier, raised by one version. -/
def raised (identifier : String) : Document → Document
  | .staffUser d => .staffUser
    { d with email := identifier, authVersion := Accounts.incremented d.authVersion }
  | .member d => .member
    { d with
      loginIdentifier := some identifier
      authVersion := Accounts.incremented d.authVersion }
  | d => d

namespace RepairPlan

variable {p : RepairPlan} {v v' : Database} {x : Reassignment} {n : ℕ}

/-- Batches of one size cover what they are cut from. -/
theorem Progress.covers (h : p.Progress none v) (hsize : p.size = some n) : p.Covers v n := by
  rintro ⟨xs, k⟩ hchunk ⟨b, hb, hnumber⟩ x hx
  rw [List.mk_mem_zipIdx_iff_getElem?] at hchunk
  refine ⟨b, hb, h.cut b hb n hsize xs ?_ x hx, .inr ?_⟩
  · rw [hnumber]
    exact hchunk
  · rw [hnumber]
    exact (List.getElem?_eq_some_iff.mp hchunk).1

/-- The replacements are free, and their subjects do not carry them yet. -/
structure Free (p : RepairPlan) : Prop where
  reservations : ∀ x ∈ p.items, ∀ r, reservation p.start x.newIdentifier = some r →
    r.status = .released
  accounts : ∀ x ∈ p.items,
    Database.carries p.start x.subjectId x.newIdentifier x.subjectType = false

/-- The reservation but for the dates of the run, and for its id where the run has given it. -/
def undated (p : RepairPlan) (r : AuthIdentifier) : AuthIdentifier :=
  { r with
    id := if (reservation p.start r.normalizedIdentifier).isSome then r.id else ""
    releasedAt := r.releasedAt.map fun _ => 0
    updatedAt := 0 }

/-- The same accounts, the same reservations, and the conflict in the same state. -/
structure Same (p : RepairPlan) (v v' : Database) : Prop where
  account : ∀ subject, accountOf v subject = accountOf v' subject
  reservation : ∀ identifier,
    (reservation v identifier).map p.undated = (Operations.reservation v' identifier).map p.undated

/-- The version of every subject's account has been raised once. -/
def RaisedOnce (p : RepairPlan) (v : Database) : Prop :=
  ∀ x ∈ p.items, ∃ d, accountOf p.start x.ref = some d ∧
    accountOf v x.ref = some (raised x.newIdentifier d)

theorem Replaces.undated {r r' : AuthIdentifier} (h : p.Replaces x r) (h' : p.Replaces x r') :
    p.undated ((p.activation []).apply r) = p.undated ((p.activation []).apply r') := by
  obtain ⟨now, newId, rfl⟩ := h
  obtain ⟨now', newId', rfl⟩ := h'
  cases hold : Operations.reservation p.start x.newIdentifier with
  | none => simp [RepairPlan.undated, activation, IdentifiersUpdate.apply, upsert,
      IdentifierUpsert.reserves, IdentifierUpsert.created, hold]
  | some r => rfl

theorem undated_settled (conflictId : String) (now now' : Date) (r : AuthIdentifier) :
    p.undated (p.settled conflictId now r) = p.undated (p.settled conflictId now' r) := by
  by_cases hr : r.id = conflictId ∧ r.status = .conflict
  · cases hretained : p.manifest.retainedSubject with
    | none => simp [undated, settled, IdentifierUpdate.selects, IdentifierUpdate.apply, hr, hretained]
    | some subject =>
      simp [undated, settled, IdentifierUpdate.selects, IdentifierUpdate.apply, hr, hretained]
  · simp [settled, IdentifierUpdate.selects, hr]

/-- Whatever is completed has come all the way. -/
theorem Progress.through_of_completed (hp : p.Distinct) (h : p.Progress none v)
    (hcompleted : p.Completed v) (hx : x ∈ p.items) : p.Moved v x ∧ p.Activated v x := by
  obtain ⟨b, hb, hactivated, hbelongs⟩ := (h.finished hcompleted).activated x hx
  exact h.through hp hb (by simp) hactivated hx hbelongs

theorem Progress.same (hp : p.Distinct) (h : p.Progress none v) (h' : p.Progress none v')
    (hcompleted : p.Completed v) (hcompleted' : p.Completed v') : p.Same v v' := by
  refine ⟨fun subject => ?_, fun identifier => ?_⟩
  · by_cases hsubject : ∀ x ∈ p.items, x.ref ≠ subject
    · rw [h.bystanders subject hsubject, h'.bystanders subject hsubject]
    · push Not at hsubject
      obtain ⟨x, hx, rfl⟩ := hsubject
      obtain ⟨d, hd, hnow⟩ := (h.through_of_completed hp hcompleted hx).1
      obtain ⟨d', hd', hnow'⟩ := (h'.through_of_completed hp hcompleted' hx).1
      rw [hd] at hd'
      cases hd'
      rw [hnow, hnow']
  · by_cases hidentifier : identifier ∈ p.identifiers
    · obtain ⟨x, hx, rfl⟩ := List.mem_map.mp hidentifier
      obtain ⟨r, hr, hnow⟩ := (h.through_of_completed hp hcompleted hx).2
      obtain ⟨r', hr', hnow'⟩ := (h'.through_of_completed hp hcompleted' hx).2
      rw [hnow, hnow', Option.map_some, Option.map_some, hr.undated hr']
    · obtain ⟨conflictId, now, hcast, hsettled⟩ := (h.finished hcompleted).settled
      obtain ⟨conflictId', now', hcast', hsettled'⟩ := (h'.finished hcompleted').settled
      rw [hcast] at hcast'
      cases hcast'
      rw [hsettled identifier hidentifier, hsettled' identifier hidentifier, Option.map_map,
        Option.map_map]
      congr 1
      exact funext fun r => undated_settled conflictId now now' r

/-- Who does not carry the identifier is raised with it. -/
theorem reassigned_eq_raised {d : Document} (hd : accountOf v x.ref = some d)
    (hcarries : Database.carries v x.subjectId x.newIdentifier x.subjectType = false) :
    reassigned x.newIdentifier d = raised x.newIdentifier d := by
  have hkey : d.key = accountKey x.subjectType x.subjectId := key_of_find hd
  replace hd : v.find (accountKey x.subjectType x.subjectId) = some d := hd
  cases htype : x.subjectType with
  | staff =>
    rw [htype] at hkey hd hcarries
    obtain ⟨u, hu, rfl⟩ := Option.map_eq_some_iff.mp hd
    obtain ⟨hmem, hid⟩ := mem_of_find hu
    have hne := List.any_eq_false.mp hcarries u hmem
    rw [hid, Bool.true_and, decide_eq_true_eq] at hne
    rw [reassigned, if_neg hne, raised]
  | member =>
    rw [htype] at hkey hd hcarries
    obtain ⟨u, hu, rfl⟩ := Option.map_eq_some_iff.mp hd
    obtain ⟨hmem, hid⟩ := mem_of_find hu
    have hne := List.any_eq_false.mp hcarries u hmem
    rw [hid, Bool.true_and, decide_eq_true_eq] at hne
    rw [reassigned, if_neg hne, raised]

theorem Progress.raisedOnce (hp : p.Distinct) (hfree : p.Free) (h : p.Progress none v)
    (hcompleted : p.Completed v) : p.RaisedOnce v := by
  intro x hx
  obtain ⟨d, hd, hnow⟩ := (h.through_of_completed hp hcompleted hx).1
  refine ⟨d, hd, ?_⟩
  rw [hnow, reassigned_eq_raised hd (hfree.accounts x hx)]

/-- A database that shows what is stored of the identifiers and their operations. -/
def Shows (v : Database) (s : SignIn.Database) : Prop :=
  s.identifiers = v.identifiers ∧ s.operations = v.operations

/-- The identifiers that the repair is about: the replacements, and what is in conflict. -/
def Concerns (p : RepairPlan) (identifier : String) : Prop :=
  identifier ∈ p.identifiers ∨
    ∃ r ∈ p.start.identifiers, r.normalizedIdentifier = identifier ∧ r.status = .conflict

/-- Until the repair is completed its replacements are behind its gate, or not active yet. -/
theorem Progress.gated (hready : p.Ready) (hfree : p.Free) (h : p.Progress none v)
    (hopen : ¬ p.Completed v) {identifier : String} (hconcerns : p.Concerns identifier)
    {r : AuthIdentifier} (hr : r ∈ v.identifiers) (hname : r.normalizedIdentifier = identifier)
    (hactive : r.status = .active) : r.activationGateOperationId = some p.operationId := by
  have hnow : reservation v identifier = some r := (reservation_eq_some h.indexed).mpr ⟨hr, hname⟩
  by_cases hidentifier : identifier ∈ p.identifiers
  · obtain ⟨x, hx, rfl⟩ := List.mem_map.mp hidentifier
    rcases h.reservations x hx with hstart | ⟨r', hr', heq⟩ | ⟨r', hr', heq⟩
    · rw [hnow] at hstart
      have hreleased := hfree.reservations x hx r hstart.symm
      rw [hactive] at hreleased
      cases hreleased
    · rw [hnow] at heq
      cases heq
      rw [hr'.status] at hactive
      cases hactive
    · rw [hnow] at heq
      cases heq
      rfl
  · obtain ⟨r', hr', hname', hconflict⟩ := hconcerns.resolve_left hidentifier
    have hstart : reservation p.start identifier = some r' :=
      (reservation_eq_some hready.indexed).mpr ⟨hr', hname'⟩
    rw [h.untouched hopen identifier hidentifier, hstart] at hnow
    cases hnow
    rw [hconflict] at hactive
    cases hactive

variable {ι : Type} [DecidableEq ι] {env : Environment}

/-- A call takes the repair up: it presents the manifest of the dry run, in batches of the same
size. -/
structure TakesUp (env : Environment) (p : RepairPlan) (s : Store) (call : ApplyCall) : Prop where
  presents : Presents env p s.committed call
  size : p.size = some call.maxAssignments

/-- The runs of the repair, with calls that fail or crash anywhere. -/
abbrev Resumes (ι : Type) [DecidableEq ι] (env : Environment) (p : RepairPlan)
    (c : Config ι ApplyCall Op Store (Except Failure OfflineRepairResult) Event) : Prop :=
  (repairs env p.operationId).Turns (TakesUp env p) (Config.init (.init p.start)) c

variable {c c' : Config ι ApplyCall Op Store (Except Failure OfflineRepairResult) Event}

theorem progress_of_resumes (hp : p.Distinct) (hready : p.Ready) (hrun : Resumes ι env p c) :
    p.Progress none c.store.committed := by
  refine progress_of_turns hp hready.progress (fun s call h hcall => ⟨hcall.presents, ?_, ?_⟩) hrun
  · rintro m hm
    rw [hcall.size] at hm
    exact (Option.some.inj hm).symm
  · exact h.covers hcall.size

/-- Two runs of one repair that complete it end the same, with the version of every account
raised once; before, none of its identifiers passes the gate of sign-in. -/
theorem resumable (hp : p.Distinct) (hready : p.Ready) (hfree : p.Free) (hname : p.operationId ≠ "") :
    (∀ c c', Resumes ι env p c → Resumes ι env p c' → p.Completed c.store.committed →
      p.Completed c'.store.committed →
      p.Same c.store.committed c'.store.committed ∧ p.RaisedOnce c.store.committed) ∧
    ∀ signIn identifier, p.Concerns identifier → SignIn.Refused signIn
      {s | ∃ c : Config ι ApplyCall Op Store (Except Failure OfflineRepairResult) Event,
        Resumes ι env p c ∧ ¬ p.Completed c.store.committed ∧ Shows c.store.committed s}
      identifier := by
  refine ⟨fun c c' hrun hrun' hcompleted hcompleted' => ?_, fun signIn identifier hconcerns => ?_⟩
  · have h := progress_of_resumes hp hready hrun
    exact ⟨h.same hp (progress_of_resumes hp hready hrun') hcompleted hcompleted',
      h.raisedOnce hp hfree hcompleted⟩
  · refine SignIn.refused_of_shut ?_
    rintro s ⟨c, hrun, hopen, hshows⟩ r hr hr' hactive
    rw [hshows.1] at hr
    have hgated := (progress_of_resumes hp hready hrun).gated hready hfree hopen hconcerns hr hr' hactive
    refine ⟨p.operationId, hname, hgated, ?_⟩
    rintro s' ⟨c', -, hopen', hshows'⟩ d hd hid hstatus
    rw [hshows'.2] at hd
    exact hopen' ⟨d, ⟨hd, hid⟩, hstatus⟩

end RepairPlan

section Schedules

open RepairPlan

theorem memberRepair_free (size : Option ℕ) : (memberRepair size).Free where
  reservations := by
    have h : ∀ x ∈ (memberRepair none).items,
        ∀ r ∈ (reservation (memberRepair none).start x.newIdentifier), r.status = .released := by
      decide
    exact h
  accounts := by
    have h : ∀ x ∈ (memberRepair none).items,
        Database.carries (memberRepair none).start x.subjectId x.newIdentifier x.subjectType =
          false := by decide
    exact h

/-- In one go. -/
def uninterrupted : List (Move ℕ ApplyCall Choice) :=
  .start 1 (applyCall 1) :: repairTurns 25 1 1100 firstId ++ repairTurns 50 1 1100 secondId

/-- The first call crashes once it has prepared the first batch. -/
def interrupted : List (Move ℕ ApplyCall Choice) :=
  .start 1 (applyCall 1) :: repairTurns 28 1 1100 firstId ++
    [.crash 1, .start 2 (applyCall 1)] ++ repairTurns 58 2 1200 secondId

def takesUp (_ : Store) (call : ApplyCall) : Bool := decide (call = applyCall 1)

theorem takesUp_takesUp {s : Store} {call : ApplyCall} (h : takesUp s call = true) :
    TakesUp deployment (memberRepair (some 1)) s call := by
  rw [takesUp, decide_eq_true_eq] at h
  subst h
  exact ⟨presents_applyCall, rfl⟩

/-- The repair interrupted, and the repair in one go. -/
theorem resumable_interrupted : ∃ c c' : RepairRun,
    Resumes ℕ deployment (memberRepair (some 1)) c ∧
    Resumes ℕ deployment (memberRepair (some 1)) c' ∧
    outcome c = outcome c' ∧ outcome c = ([("repair", .completed)], [true, true]) ∧
    (memberRepair (some 1)).Same c.store.committed c'.store.committed ∧
    (memberRepair (some 1)).RaisedOnce c.store.committed ∧
    SignIn.Refused SignIn.plain
      {s | ∃ c : RepairRun, Resumes ℕ deployment (memberRepair (some 1)) c ∧
        ¬ (memberRepair (some 1)).Completed c.store.committed ∧ Shows c.store.committed s}
      "olivia" := by
  have hrun : (repairDriver.takeTurns takesUp none
      (Config.init (.init (memberRepair (some 1)).start)) interrupted).map outcome =
      some ([("repair", .completed)], [true, true]) := by decide +kernel
  have hrun' : (repairDriver.takeTurns takesUp none
      (Config.init (.init (memberRepair (some 1)).start)) uninterrupted).map outcome =
      some ([("repair", .completed)], [true, true]) := by decide +kernel
  obtain ⟨c, hplay, houtcome⟩ := Option.map_eq_some_iff.mp hrun
  obtain ⟨c', hplay', houtcome'⟩ := Option.map_eq_some_iff.mp hrun'
  have hturns : Resumes ℕ deployment (memberRepair (some 1)) c :=
    Driver.takeTurns_turns (fun _ _ => takesUp_takesUp) (fun _ _ => rfl) hplay
  have hturns' : Resumes ℕ deployment (memberRepair (some 1)) c' :=
    Driver.takeTurns_turns (fun _ _ => takesUp_takesUp) (fun _ _ => rfl) hplay'
  have hdistinct := memberRepair_distinct (some 1)
  have hready := memberRepair_ready (some 1)
  have hfree := memberRepair_free (some 1)
  obtain ⟨hsame, hraised⟩ := (resumable hdistinct hready hfree (by decide)).1 c c' hturns hturns'
    (completed_of_outcome houtcome) (completed_of_outcome houtcome')
  exact ⟨c, c', hturns, hturns', houtcome.trans houtcome'.symm, houtcome, hsame, hraised,
    (resumable hdistinct hready hfree (by decide)).2 SignIn.plain "olivia"
      (.inr ⟨_, List.mem_cons_self, rfl, rfl⟩)⟩

end Schedules

end Operations
