import BookLibrary.Documents.Sets
import BookLibrary.Operations.Execution

/-!
# Which mappings of a conflict are accepted

A conflict is resolved by a mapping that lets one claimant retain the identifier, or none, and
gives the others new ones. The online resolution and the offline repair each check it by
comparing sets.
-/

namespace Operations

open AuthIdentifiers Documents Interleaving

section Handlers

variable {α β : Type}

theorem throw_ne_pure {e : Failure} {a : α} : (throw e : Handler α) ≠ pure a := nofun

theorem pure_inj {a b : α} : (pure a : Handler α) = pure b ↔ a = b := by
  constructor
  · intro h
    cases h
    rfl
  · rintro rfl
    rfl

theorem bind_eq_pure {x : Handler β} {f : β → Handler α} {a : α} :
    x >>= f = pure a ↔ ∃ b, x = pure b ∧ f b = pure a := by
  constructor
  · intro h
    cases x with
    | done r =>
      cases r with
      | ok b => exact ⟨b, rfl, h⟩
      | error e => cases h
    | call op next => cases h
  · rintro ⟨b, rfl, hb⟩
    exact hb

/-- A check that throws, and what follows where it does not. -/
theorem ite_throw_eq_pure {c : Prop} [Decidable c] {e : Failure} {x : Handler α} {a : α} :
    (if c then throw e else x) = pure a ↔ ¬ c ∧ x = pure a := by
  by_cases h : c
  · rw [if_pos h]
    exact ⟨fun heq => absurd heq throw_ne_pure, fun heq => absurd h heq.1⟩
  · rw [if_neg h]
    exact ⟨fun heq => ⟨h, heq⟩, fun heq => heq.2⟩

/-- A loop of checks that all throw the same. -/
theorem mapM_check {c : β → Prop} [DecidablePred c] {e : Failure} {f : β → α} (xs : List β) :
    (xs.mapM fun x => if c x then (throw e : Handler α) else return f x) =
      if ∃ x ∈ xs, c x then throw e else return xs.map f := by
  induction xs with
  | nil => simp
  | cons x xs ih =>
    rw [List.mapM_cons, ih]
    by_cases hx : c x
    · have hex : ∃ y ∈ x :: xs, c y := ⟨x, List.mem_cons_self, hx⟩
      rw [if_pos hx, if_pos hex]
      rfl
    · rw [if_neg hx, pure_bind]
      by_cases hxs : ∃ y ∈ xs, c y
      · obtain ⟨y, hy, hcy⟩ := hxs
        have hrest : ∃ y ∈ xs, c y := ⟨y, hy, hcy⟩
        have hex : ∃ y ∈ x :: xs, c y := ⟨y, List.mem_cons_of_mem _ hy, hcy⟩
        rw [if_pos hrest, if_pos hex]
        rfl
      · rw [if_neg hxs, if_neg, pure_bind, List.map_cons]
        rintro ⟨y, hy, hcy⟩
        rcases List.mem_cons.mp hy with rfl | hy
        · exact hx hcy
        · exact hxs ⟨y, hy, hcy⟩

end Handlers

section Online

variable (env : Environment)

namespace ResolveAuthIdentifierConflictDto

variable (dto : ResolveAuthIdentifierConflictDto)

def reassigned : List AuthIdentifierSubjectReference :=
  dto.reassignments.map (·.toAuthIdentifierSubjectReference)

def replacements : List String :=
  dto.reassignments.map fun item => env.toLowerCase (env.trim item.newIdentifier)

/-- The retained subject is reassigned as well. -/
def Overlaps : Prop := ∃ subject ∈ dto.retainedSubject, subject ∈ dto.reassigned

/-- Each subject is reassigned once, the subjects named are exactly the claimants, and the
replacements are identifiers of their own. -/
structure Covers (subjects : List AuthIdentifierSubjectReference) (original : String) : Prop where
  once : dto.reassigned.Nodup
  claimants : ∀ subject, subject ∈ dto.retainedSubject.toList ++ dto.reassigned ↔
    subject ∈ subjects
  nonempty : ∀ identifier ∈ dto.replacements env, identifier ≠ ""
  distinct : (dto.replacements env).Nodup
  apart : original ∉ dto.replacements env

/-- The mapping is exact: nobody both retains the identifier and is given another. -/
structure Exact (subjects : List AuthIdentifierSubjectReference) (original : String) : Prop
    extends dto.Covers env subjects original where
  disjoint : ¬ dto.Overlaps

end ResolveAuthIdentifierConflictDto

variable {env} {subjects : List AuthIdentifierSubjectReference} {original : String}
  {dto : ResolveAuthIdentifierConflictDto}

open AuthIdentifierService (validateConflictMapping)

theorem mapM_normalizeIdentifier :
    (dto.reassignments.mapM fun item =>
        AuthIdentifierService.normalizeIdentifier env item.newIdentifier) =
      if ∃ item ∈ dto.reassignments, env.toLowerCase (env.trim item.newIdentifier) = "" then
        throw (.unprocessable "Replacement identifier is required")
      else return dto.replacements env := mapM_check _

/-- The check says nothing of a subject that is both retained and reassigned. -/
theorem validateConflictMapping_eq_pure :
    validateConflictMapping env subjects original dto = pure () ↔
      dto.Covers env subjects original := by
  rw [validateConflictMapping, mapM_normalizeIdentifier]
  simp only [ite_throw_eq_pure]
  constructor
  · rintro ⟨hretained, honce, hset, heq⟩
    rw [not_or, not_not, not_not] at hset
    obtain ⟨hlength, hall⟩ := hset
    have hsub : ∀ subject ∈ dto.retainedSubject.toList ++ dto.reassigned, subject ∈ subjects := by
      intro subject hsubject
      exact List.contains_iff_mem.mp (List.all_eq_true.mp hall subject hsubject)
    by_cases hblank : ∃ item ∈ dto.reassignments, env.toLowerCase (env.trim item.newIdentifier) = ""
    · rw [if_pos hblank] at heq
      cases heq
    · rw [if_neg hblank, pure_bind, ite_throw_eq_pure, not_or, not_not] at heq
      obtain ⟨⟨hdistinct, hapart⟩, -⟩ := heq
      refine ⟨not_not.mp honce, mem_iff_of_length_eraseDups hlength hsub, ?_, hdistinct, ?_⟩
      · intro identifier hidentifier hne
        obtain ⟨item, hitem, heq⟩ := List.mem_map.mp hidentifier
        exact hblank ⟨item, hitem, heq.trans hne⟩
      · exact fun hmem => hapart (List.contains_iff_mem.mpr hmem)
  · intro h
    have hblank : ¬ ∃ item ∈ dto.reassignments,
        env.toLowerCase (env.trim item.newIdentifier) = "" := by
      rintro ⟨item, hitem, heq⟩
      exact h.nonempty _ (List.mem_map_of_mem hitem) heq
    refine ⟨?_, not_not.mpr h.once, ?_, ?_⟩
    · rw [not_not, Option.all_eq_true]
      intro subject hsubject
      refine List.contains_iff_mem.mpr ((h.claimants subject).mp ?_)
      exact List.mem_append_left _ (Option.mem_toList.mpr hsubject)
    · rw [not_or, not_not, not_not, List.all_eq_true]
      refine ⟨length_eraseDups_congr h.claimants, fun subject hsubject => ?_⟩
      exact List.contains_iff_mem.mpr ((h.claimants subject).mp hsubject)
    · rw [if_neg hblank, pure_bind, ite_throw_eq_pure, not_or, not_not]
      refine ⟨⟨h.distinct, fun hmem => h.apart (List.contains_iff_mem.mp hmem)⟩, rfl⟩

/-- A mapping is accepted just if it is exact, but where a subject retains the identifier and is
given another and nothing else is wrong. -/
theorem validateConflictMapping_exact_iff :
    (validateConflictMapping env subjects original dto = pure () ↔
      dto.Exact env subjects original) ↔
        ¬ (dto.Overlaps ∧ dto.Covers env subjects original) := by
  rw [validateConflictMapping_eq_pure]
  constructor
  · rintro h ⟨hoverlaps, hcovers⟩
    exact (h.mp hcovers).disjoint hoverlaps
  · intro h
    constructor
    · exact fun hcovers => ⟨hcovers, fun hoverlaps => h ⟨hoverlaps, hcovers⟩⟩
    · exact fun hexact => hexact.toCovers

/-- The first member retains the identifier and is given another. -/
theorem validateConflictMapping_not_exact :
    ∃ dto : ResolveAuthIdentifierConflictDto,
      validateConflictMapping deployment
        [⟨.member, firstMemberId.1⟩, ⟨.member, secondMemberId.1⟩] "olivia" dto = pure () ∧
      ¬ dto.Exact deployment [⟨.member, firstMemberId.1⟩, ⟨.member, secondMemberId.1⟩] "olivia" := by
  refine ⟨{ resolution with reassignments :=
    ⟨⟨.member, firstMemberId.1⟩, "olivia-1"⟩ :: resolution.reassignments }, ?_, fun h => ?_⟩
  · rfl
  · exact h.disjoint ⟨⟨.member, firstMemberId.1⟩, rfl, List.mem_cons_self⟩

end Online

section Offline

variable (env : Environment)

open AuthIdentifierRepairService (validateManifestSubjects)

namespace RepairManifest

variable (manifest : RepairManifest)

/-- The subjects that the manifest names, as they are after it has been normalized. -/
def mapped : List AuthIdentifierSubjectReference :=
  (manifest.retainedSubject.map fun subject =>
    { subject with subjectId := env.trim subject.subjectId }).toList ++
      manifest.reassignments.map fun item =>
        (normalizeReassignment env item).toAuthIdentifierSubjectReference

def newIdentifiers : List String :=
  manifest.reassignments.map fun item => (normalizeReassignment env item).newIdentifier

/-- There is something to repair, and nothing of it is blank. -/
structure Filled : Prop where
  conflictId : env.trim manifest.conflictId ≠ ""
  reassignments : manifest.reassignments ≠ []
  items : ∀ item ∈ manifest.reassignments, env.trim item.subjectId ≠ "" ∧
    env.toLowerCase (env.trim item.newIdentifier) ≠ ""

/-- The claimants occur in the manifest, and nobody else. -/
def Accounts (claimants : List AuthIdentifierSubjectReference) : Prop :=
  ∀ subject, subject ∈ manifest.mapped env ↔ subject ∈ claimants

/-- Every claimant occurs once and nobody else, and the new identifiers differ from each other
and from the one in conflict. -/
structure Exact (conflict : AuthIdentifier) : Prop where
  claimants : manifest.Accounts env (conflict.conflictingSubjects.getD [])
  once : (manifest.mapped env).Nodup
  distinct : (manifest.newIdentifiers env).Nodup
  apart : conflict.normalizedIdentifier ∉ manifest.newIdentifiers env

/-- The manifest passes both checks. -/
def Accepted (conflict : AuthIdentifier) : Prop :=
  (do
    let normalized ← normalizeRepairManifest env manifest
    validateManifestSubjects conflict normalized) = pure ()

end RepairManifest

variable {env} {manifest : RepairManifest} {conflict : AuthIdentifier}

theorem validateManifestSubjects_eq_pure :
    validateManifestSubjects conflict manifest = pure () ↔
      ∀ subject, subject ∈ manifest.retainedSubject.toList ++
        manifest.reassignments.map (·.toAuthIdentifierSubjectReference) ↔
          subject ∈ conflict.conflictingSubjects.getD [] := by
  rw [validateManifestSubjects]
  simp only [ite_throw_eq_pure, not_or, not_not, List.all_eq_true]
  constructor
  · rintro ⟨⟨hlength, hall⟩, -⟩
    exact mem_iff_of_length_eraseDups hlength fun subject hsubject =>
      List.contains_iff_mem.mp (hall subject hsubject)
  · intro h
    exact ⟨⟨length_eraseDups_congr h, fun subject hsubject =>
      List.contains_iff_mem.mpr ((h subject).mp hsubject)⟩, trivial⟩

theorem normalizeRepairManifest_eq_pure {normalized : RepairManifest} :
    normalizeRepairManifest env manifest = pure normalized ↔ manifest.Filled env ∧
      normalized = {
        conflictId := env.trim manifest.conflictId
        retainedSubject := manifest.retainedSubject.map fun subject =>
          { subject with subjectId := env.trim subject.subjectId }
        reassignments := (manifest.reassignments.map (normalizeReassignment env)).insertionSort
          (subjectPrecedes env · · = true) } := by
  rw [normalizeRepairManifest]
  simp only [ite_throw_eq_pure, pure_inj, not_or]
  have hempty : ((manifest.reassignments.map (normalizeReassignment env)).insertionSort
      (subjectPrecedes env · · = true)).isEmpty = true ↔ manifest.reassignments = [] := by
    rw [List.isEmpty_iff, ← List.length_eq_zero_iff, List.length_insertionSort, List.length_map,
      List.length_eq_zero_iff]
  have hblank : (((manifest.reassignments.map (normalizeReassignment env)).insertionSort
      (subjectPrecedes env · · = true)).any fun item =>
        decide (item.subjectId = "") || decide (item.newIdentifier = "")) = true ↔
      ∃ item ∈ manifest.reassignments, env.trim item.subjectId = "" ∨
        env.toLowerCase (env.trim item.newIdentifier) = "" := by
    simp [List.any_eq_true, List.mem_insertionSort, normalizeReassignment]
  rw [hempty, hblank]
  constructor
  · rintro ⟨hconflict, ⟨hempty, hblank⟩, heq⟩
    refine ⟨⟨hconflict, hempty, fun item hitem => ⟨fun h => ?_, fun h => ?_⟩⟩, heq.symm⟩
    · exact hblank ⟨item, hitem, .inl h⟩
    · exact hblank ⟨item, hitem, .inr h⟩
  · rintro ⟨hfilled, heq⟩
    refine ⟨hfilled.conflictId, ⟨hfilled.reassignments, ?_⟩, heq.symm⟩
    rintro ⟨item, hitem, h | h⟩
    · exact (hfilled.items item hitem).1 h
    · exact (hfilled.items item hitem).2 h

theorem accepted_iff :
    manifest.Accepted env conflict ↔
      manifest.Filled env ∧ manifest.Accounts env (conflict.conflictingSubjects.getD []) := by
  have hmem : ∀ subject, subject ∈ manifest.mapped env ↔ subject ∈ (manifest.retainedSubject.map
      fun subject => { subject with subjectId := env.trim subject.subjectId }).toList ++
        ((manifest.reassignments.map (normalizeReassignment env)).insertionSort
          (subjectPrecedes env · · = true)).map (·.toAuthIdentifierSubjectReference) := by
    intro subject
    simp [RepairManifest.mapped, List.mem_insertionSort]
  rw [RepairManifest.Accepted, bind_eq_pure]
  constructor
  · rintro ⟨normalized, hnormalized, haccepted⟩
    obtain ⟨hfilled, rfl⟩ := normalizeRepairManifest_eq_pure.mp hnormalized
    rw [validateManifestSubjects_eq_pure] at haccepted
    exact ⟨hfilled, fun subject => (hmem subject).trans (haccepted subject)⟩
  · rintro ⟨hfilled, haccounts⟩
    refine ⟨_, normalizeRepairManifest_eq_pure.mpr ⟨hfilled, rfl⟩, ?_⟩
    rw [validateManifestSubjects_eq_pure]
    exact fun subject => (hmem subject).symm.trans (haccounts subject)

/-- What is accepted is filled and names the claimants and nobody else; and where every claimant
is named once and every new identifier is one of its own, whatever is filled is accepted. -/
theorem accepted_exact :
    (manifest.Accepted env conflict → manifest.Filled env ∧
      manifest.Accounts env (conflict.conflictingSubjects.getD [])) ∧
    (manifest.Exact env conflict → (manifest.Accepted env conflict ↔ manifest.Filled env)) := by
  refine ⟨accepted_iff.mp, fun hexact => ?_⟩
  rw [accepted_iff]
  exact ⟨fun h => h.1, fun h => ⟨h, hexact.claimants⟩⟩

/-- Every claimant is named once, but the new identifier is blank. -/
theorem not_accepted_blank : ∃ (manifest : RepairManifest) (conflict : AuthIdentifier),
    conflict ∈ contested.identifiers ∧ manifest.Exact deployment conflict ∧
      ¬ manifest.Accepted deployment conflict := by
  refine ⟨⟨conflictId.1, some ⟨.member, firstMemberId.1⟩, [⟨⟨.member, secondMemberId.1⟩, ""⟩]⟩,
    _, List.mem_cons_self, ⟨?_, ?_, ?_, ?_⟩, fun h => ?_⟩
  · intro subject
    exact Iff.rfl
  · decide
  · decide
  · decide
  · exact ((accepted_iff.mp h).1.items _ List.mem_cons_self).2 rfl

end Offline

end Operations
