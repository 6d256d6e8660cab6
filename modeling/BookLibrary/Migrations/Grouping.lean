import BookLibrary.Migrations.Backfill

/-!
# Who uses an identifier

The candidates of an identifier are the accounts that use it, each of them once.
-/

namespace Migrations

open AuthIdentifiers Documents Interleaving

variable {env : Environment}

/-- An account carries the identifier in one of its fields. -/
inductive Uses (env : Environment) (s : Database) (n : String) :
    AuthIdentifierSubjectReference → Prop where
  | email {d : LegacyAccountDocument} (stored : d ∈ s.staffusers)
      (carries : normalizeIdentifier env d.email = some n) : Uses env s n ⟨.staff, d.id⟩
  | loginIdentifier {d : LegacyAccountDocument} (stored : d ∈ s.members)
      (carries : normalizeIdentifier env d.loginIdentifier = some n) : Uses env s n ⟨.member, d.id⟩
  | memberNumber {d : LegacyAccountDocument} (stored : d ∈ s.members)
      (carries : normalizeIdentifier env d.memberNumber = some n) : Uses env s n ⟨.member, d.id⟩

/-- The candidates of an identifier. -/
def candidatesOf (groups : Groups) (n : String) : List IdentifierCandidate :=
  (getEntry n groups).getD []

/-- The groups are those of the subjects that `U` says use an identifier. -/
structure Groups.Of (groups : Groups) (U : String → AuthIdentifierSubjectReference → Prop) :
    Prop where
  keys : (groups.map (·.1)).Nodup
  used : ∀ n, n ∈ groups.map (·.1) ↔ ∃ subject, U n subject
  subjects : ∀ n subject, (∃ c ∈ candidatesOf groups n, c.subject = subject) ↔ U n subject
  once : ∀ n, ((candidatesOf groups n).map (·.subject)).Nodup

theorem Groups.Of.congr {groups : Groups} {U U' : String → AuthIdentifierSubjectReference → Prop}
    (h : groups.Of U) (hU : ∀ n subject, U n subject ↔ U' n subject) : groups.Of U' where
  keys := h.keys
  used n := by
    rw [h.used]
    exact exists_congr (hU n)
  subjects n subject := (h.subjects n subject).trans (hU n subject)
  once := h.once

theorem Groups.of_nil : Groups.Of [] fun _ _ => False where
  keys := List.nodup_nil
  used n := by simp
  subjects n subject := by simp [candidatesOf, getEntry]
  once n := by simp [candidatesOf, getEntry]

variable {groups : Groups} {U : String → AuthIdentifierSubjectReference → Prop}

theorem Groups.Of.addCandidate (h : groups.Of U) (value : Option String)
    (identifierType : AuthIdentifierType) (subjectType : AuthIdentifierSubjectType)
    (subjectId : String) :
    Groups.Of (Migrations.addCandidate env groups value identifierType subjectType subjectId)
      fun n subject => U n subject ∨
        normalizeIdentifier env value = some n ∧ subject = ⟨subjectType, subjectId⟩ := by
  cases hvalue : normalizeIdentifier env value with
  | none =>
    rw [Migrations.addCandidate, hvalue]
    exact h.congr fun n subject => by simp
  | some m =>
    rw [Migrations.addCandidate, hvalue]
    obtain ⟨candidate, hcandidate⟩ : ∃ c : IdentifierCandidate,
      c = ⟨m, identifierType, ⟨subjectType, subjectId⟩⟩ := ⟨_, rfl⟩
    obtain ⟨next, hnext⟩ : ∃ next, next = if (candidatesOf groups m).any fun c =>
        decide (c.subject = candidate.subject) then candidatesOf groups m
      else candidatesOf groups m ++ [candidate] := ⟨_, rfl⟩
    have hsubject : candidate.subject = ⟨subjectType, subjectId⟩ := by rw [hcandidate]
    -- the candidates of the identifier, and those of the others
    have hmem : ∀ subject, (∃ c ∈ next, c.subject = subject) ↔
        (∃ c ∈ candidatesOf groups m, c.subject = subject) ∨ subject = candidate.subject := by
      intro subject
      rw [hnext]
      split
      · next hany =>
        obtain ⟨c, hc, heq⟩ := List.any_eq_true.mp hany
        refine ⟨.inl, fun hor => hor.elim id ?_⟩
        rintro rfl
        exact ⟨c, hc, of_decide_eq_true heq⟩
      · simp only [List.mem_append, List.mem_singleton, or_and_right, exists_or, exists_eq_left]
        rw [eq_comm]
    have honce : (next.map (·.subject)).Nodup := by
      rw [hnext]
      split
      · exact h.once m
      · next hany =>
        rw [List.map_append, List.nodup_append]
        refine ⟨h.once m, List.nodup_singleton _, fun subject hold subject' hnew heq => hany ?_⟩
        obtain ⟨c, hc, rfl⟩ := List.mem_map.mp hold
        rw [List.map_singleton, List.mem_singleton] at hnew
        exact List.any_eq_true.mpr ⟨c, hc, decide_eq_true (heq.trans hnew)⟩
    have hentry : ∀ n, candidatesOf (setEntry m next groups) n =
        if m = n then next else candidatesOf groups n := by
      intro n
      rw [candidatesOf, getEntry_setEntry]
      split <;> rfl
    have hgroups : Groups.Of (setEntry m next groups) fun n subject => U n subject ∨
        m = n ∧ subject = ⟨subjectType, subjectId⟩ := by
      refine ⟨nodup_keys_setEntry h.keys, fun n => ?_, fun n subject => ?_, fun n => ?_⟩
      · rw [mem_keys_setEntry, h.used]
        constructor
        · rintro (rfl | ⟨subject, hU⟩)
          · exact ⟨_, .inr ⟨rfl, rfl⟩⟩
          · exact ⟨subject, .inl hU⟩
        · rintro ⟨subject, hU | ⟨rfl, -⟩⟩
          · exact .inr ⟨subject, hU⟩
          · exact .inl rfl
      · rw [hentry]
        by_cases hn : m = n
        · subst hn
          rw [if_pos rfl, hmem, h.subjects, hsubject]
          simp
        · rw [if_neg hn, h.subjects]
          simp [hn]
      · rw [hentry]
        split
        · exact honce
        · exact h.once n
    refine Groups.Of.congr (U := fun n subject => U n subject ∨
      m = n ∧ subject = ⟨subjectType, subjectId⟩) ?_ fun n subject => by simp
    rw [hnext, hcandidate] at hgroups
    exact hgroups

/-- The groups of all accounts of a list are those of the list before and of its accounts. -/
theorem Groups.Of.foldl {add : Groups → LegacyAccountDocument → Groups}
    {V : LegacyAccountDocument → String → AuthIdentifierSubjectReference → Prop}
    (hadd : ∀ {groups U}, Groups.Of groups U → ∀ d,
      (add groups d).Of fun n subject => U n subject ∨ V d n subject)
    {docs : List LegacyAccountDocument} (h : groups.Of U) :
    Groups.Of (docs.foldl add groups) fun n subject => U n subject ∨ ∃ d ∈ docs, V d n subject := by
  induction docs generalizing groups U with
  | nil => exact h.congr fun n subject => by simp
  | cons d docs ih =>
    refine (ih (hadd h d)).congr fun n subject => ?_
    rw [or_assoc, List.exists_mem_cons_iff]

/-- The groups of the accounts that are stored. -/
theorem candidateGroups_of (env : Environment) (s : Database) :
    (candidateGroups env (sortById s.staffusers) (sortById s.members)).Of (Uses env s) := by
  have hstaff : ∀ {groups U}, Groups.Of groups U → ∀ d, (addStaff env groups d).Of fun n subject =>
      U n subject ∨ normalizeIdentifier env d.email = some n ∧ subject = ⟨.staff, d.id⟩ :=
    fun h d => h.addCandidate _ _ _ _
  have hmember : ∀ {groups U}, Groups.Of groups U → ∀ d, (addMember env groups d).Of
      fun n subject => U n subject ∨ (normalizeIdentifier env d.loginIdentifier = some n ∨
        normalizeIdentifier env d.memberNumber = some n) ∧ subject = ⟨.member, d.id⟩ := by
    intro groups U h d
    refine ((h.addCandidate d.loginIdentifier .loginIdentifier .member d.id).addCandidate
      d.memberNumber .memberNumber .member d.id).congr fun n subject => ?_
    rw [or_and_right, or_assoc]
  refine ((Groups.of_nil.foldl hstaff).foldl hmember).congr fun n subject => ?_
  simp only [sortById, List.mem_insertionSort, false_or]
  constructor
  · rintro (⟨d, hd, hcarries, rfl⟩ | ⟨d, hd, hcarries | hcarries, rfl⟩)
    · exact .email hd hcarries
    · exact .loginIdentifier hd hcarries
    · exact .memberNumber hd hcarries
  · intro h
    cases h with
    | email hd hcarries => exact .inl ⟨_, hd, hcarries, rfl⟩
    | loginIdentifier hd hcarries => exact .inr ⟨_, hd, .inl hcarries, rfl⟩
    | memberNumber hd hcarries => exact .inr ⟨_, hd, .inr hcarries, rfl⟩

end Migrations
