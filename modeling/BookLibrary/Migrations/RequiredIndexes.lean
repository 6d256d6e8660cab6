import BookLibrary.Interleaving.Within
import BookLibrary.Migrations.Ordering

/-!
# The indexes of the authentication

`findMissingAuthMigrationIndexes` looks for indexes that the migration 003 creates.
-/

namespace Migrate

open Documents Interleaving Sessions

/-- The required indexes of these collections are there. -/
def Present (required : List (String × List String)) (s : Database) : Prop :=
  ∀ x ∈ required, ∀ name ∈ x.2, ∃ index, index.name = name ∧ name ≠ "" ∧ .index x.1 index ∈ s

theorem required_created : (AUTH_MIGRATION_REQUIRED_INDEXES.all fun x => x.2.all fun name =>
    decide (name ≠ "") && migration003Indexes.any fun created =>
      decide (created.1 = x.1) && decide (created.2.name = name)) = true := by
  decide +kernel

theorem present_of_recorded {env : Migrations.Environment} {s : Database}
    (h : Sound (loadMigrations env) s) (hrecorded : "003" ∈ s.versions) :
    Present AUTH_MIGRATION_REQUIRED_INDEXES s := by
  intro x hx name hname
  have hcreated := List.all_eq_true.mp (List.all_eq_true.mp required_created x hx) name hname
  simp only [Bool.and_eq_true, decide_eq_true_eq, List.any_eq_true] at hcreated
  obtain ⟨hne, ⟨collection, index⟩, hmem, rfl, hindex⟩ := hcreated
  have hversions : ((loadMigrations env).map (·.version)).Nodup := by
    rw [show (loadMigrations env).map (·.version) = ["000", "001", "002", "003"] from rfl]
    decide
  have hlast : (⟨migration003 env, migration003Indexes, migration003_creates env⟩ :
      Migration DocumentCall) ∈ loadMigrations env := by simp [loadMigrations]
  exact ⟨index, hindex, hne, h.indexes hversions hlast hrecorded _ hmem⟩

section Complete

variable {U : Type → Type} {Call ρ : Type} {body : Call → Prog (Op U) ρ}
  {required : List (String × List String)} {fl : Bool} {l : List Event}

/-- A call that has thrown is not forgotten. -/
theorem conforms_faulted {Call S ρ Ev α : Type} {Op : Type → Type} {sys : System Call Op S ρ Ev}
    (p : Prog Op α) {l : List Ev} :
    Conforms sys (fun _ _ _ _ => True) (fun fl _ _ => fl = true) true l p := by
  induction p generalizing l with
  | done a => rfl
  | call op next ih => exact ⟨trivial, fun b _ => ih _, fun _ r _ => ih _⟩

/-- A walk in the states in which the indexes are there, to an end as `R` says unless a call
has thrown. -/
abbrev Unhindered {α : Type} (body : Call → Prog (Op U) ρ) (required : List (String × List String))
    (R : Except Failure α → Prop) (fl : Bool) (l : List Event) (x : Handler U α) : Prop :=
  Conforms ((system (schema U) drawFails seen body).within fun s => Present required s.committed)
    (fun _ _ _ _ => True) (fun fl _ r => fl = false → R r) fl l x.run

theorem unhindered_then {α γ : Type} {R : γ → Prop} {R' : Except Failure α → Prop}
    {x : Handler U γ} {f : γ → Handler U α}
    (hx : Unhindered body required (fun r => ∃ a, r = .ok a ∧ R a) fl l x)
    (hf : ∀ l a, R a → Unhindered body required R' false l (f a)) :
    Unhindered body required R' fl l (x >>= f) := by
  refine Conforms.run_then hx (fun fl m a h => ?_) fun fl m e h hfl => ?_
  · cases fl with
    | true => exact (conforms_faulted _).mono fun _ _ _ hfl hfl' => by simp [hfl] at hfl'
    | false =>
      obtain ⟨_, ⟨⟩, ha⟩ := h rfl
      exact hf m a ha
  · obtain ⟨_, ⟨⟩, -⟩ := h hfl

/-- The names listed are those of the indexes that are there. -/
theorem findIndexNames_unhindered {collectionName : String} {requiredNames : List String}
    (h : (collectionName, requiredNames) ∈ required) :
    Unhindered body required (fun r => ∃ names, r = .ok names ∧ ∀ name ∈ requiredNames, name ∈ names)
      fl l (findIndexNames collectionName) := by
  have hlist : Unhindered body required
      (fun r => ∃ indexes, r = .ok indexes ∧
        ∀ name ∈ requiredNames, name ≠ "" ∧ name ∈ indexes.map Index.name) fl l
      (perform (.find none (.inl (.listIndexes collectionName))) : Handler U (List Index)) := by
    refine ⟨trivial, fun b hb _ => ⟨b, rfl, fun name hname => ?_⟩,
      fun _ _ _ => ⟨trivial, fun _ _ hfl => absurd hfl nofun, fun _ _ _ hfl => absurd hfl nofun⟩⟩
    obtain ⟨s, _, hpresent, ⟨_, ⟨⟩, hanswers⟩, -⟩ := hb
    obtain rfl : b = s.committed.indexes collectionName := hanswers
    obtain ⟨index, hindex, hne, hmem⟩ := hpresent _ h name hname
    exact ⟨hne, List.mem_map.mpr ⟨index, mem_indexes.mpr hmem, hindex⟩⟩
  have hnames : Unhindered body required
      (fun r => ∃ names, r = .ok names ∧ ∀ name ∈ requiredNames, name ∈ names) fl l (do
        let indexes ← (perform (.find none (.inl (.listIndexes collectionName))) :
          Handler U (List Index))
        return (indexes.map (·.name)).filter fun name => decide (name ≠ "")) := by
    refine unhindered_then hlist fun m indexes hindexes _ => ⟨_, rfl, fun name hname => ?_⟩
    exact List.mem_filter.mpr ⟨(hindexes name hname).2, decide_eq_true (hindexes name hname).1⟩
  refine Conforms.run_handle hnames (fun _ _ _ h => h) fun fl m e h hfl => ?_
  obtain ⟨_, ⟨⟩, -⟩ := h hfl

theorem findMissing_unhindered {rest : List (String × List String)} (h : rest ⊆ required) :
    Unhindered body required (fun r => ∃ missing, r = .ok missing ∧ missing.flatten = []) fl l
      (rest.mapM fun x => findMissingOf x.1 x.2) := by
  induction rest generalizing fl l with
  | nil => exact fun _ => ⟨[], rfl, rfl⟩
  | cons x rest ih =>
    rw [List.mapM_cons]
    refine unhindered_then (R := fun missing => missing = []) ?_ fun m missing hmissing => ?_
    · refine unhindered_then (findIndexNames_unhindered (h List.mem_cons_self)) fun m names hnames => ?_
      intro _
      refine ⟨_, rfl, ?_⟩
      rw [List.map_eq_nil_iff, List.filter_eq_nil_iff]
      intro name hname
      simpa using hnames name hname
    · refine unhindered_then (ih fun y hy => h (List.mem_cons_of_mem _ hy)) fun m others hothers => ?_
      intro _
      refine ⟨_, rfl, ?_⟩
      rw [hmissing]
      exact hothers

end Complete

section Exact

variable {ι : Type} [DecidableEq ι] {env : Migrations.Environment} {toISOString : Date → String}
  {s₀ : Database} {c : Config ι Call (Op DocumentCall) (Store Database Document)
    (Except Failure (List String)) Event}

/-- A look that no failure has hindered reports nothing. -/
def Reassures (call : Call) (fl : Bool) (_ : List Event) (r : Except Failure (List String)) : Prop :=
  fl = false → call = .findMissing → r = .ok []

theorem body_reassures (call : Call) :
    Conforms ((runners toISOString (loadMigrations env)).within fun s =>
        Present AUTH_MIGRATION_REQUIRED_INDEXES s.committed)
      (fun _ _ _ _ => True) (Reassures call) false [] (body toISOString (loadMigrations env) call) := by
  cases call with
  | up release => exact (Conforms.vacuous _).mono fun _ _ _ _ _ => nofun
  | status release => exact (Conforms.vacuous _).mono fun _ _ _ _ _ => nofun
  | findMissing =>
    have hwalk : Unhindered (body toISOString (loadMigrations env)) AUTH_MIGRATION_REQUIRED_INDEXES
        (fun r => r = .ok []) false [] findMissingAuthMigrationIndexes := by
      refine unhindered_then (findMissing_unhindered (List.Subset.refl _)) fun m missing hmissing => ?_
      exact fun _ => congrArg Except.ok hmissing
    exact hwalk.mono fun _ _ _ h hfl _ => h hfl

/-- Of an index that the look does not report missing there is one of its name, from then on.
And once 003 is recorded no look reports one missing, unless one of its calls has failed. -/
theorem missing_exact (hs₀ : Sound (loadMigrations env) s₀)
    (h : (runners toISOString (loadMigrations env)).Reachable (Store.init s₀) c) {i : ι}
    {th : Thread Call (Op DocumentCall) (Except Failure (List String))}
    (hcall : th.call = .findMissing) :
    (∀ missing, c.Returns i th (.ok missing) →
      ∀ x ∈ AUTH_MIGRATION_REQUIRED_INDEXES, ∀ name ∈ x.2, x.1 ++ "." ++ name ∉ missing →
        ∃ index, index.name = name ∧ .index x.1 index ∈ c.store.committed) ∧
    ("003" ∈ s₀.versions → ∀ r, c.Returns i th r → th.faulted = false → r = .ok []) := by
  constructor
  · intro missing hreturns x hx name hname hnot
    have w := wellFormed_of_reachable hs₀ h
    have hreached := w.post_of_returns hreturns missing rfl
    rw [hcall] at hreached
    obtain ⟨indexes, hsaw, index, hindex, hname⟩ := (hreached x hx name hname).resolve_right hnot
    exact ⟨index, hname, w.inv.shown hsaw ⟨rfl, List.mem_map_of_mem hindex⟩⟩
  · intro hrecorded r hreturns hfaulted
    have hpresent := present_of_recorded hs₀ hrecorded
    refine System.Runs.ends_within (I := fun s => Present AUTH_MIGRATION_REQUIRED_INDEXES s.committed)
      (fun c' hruns x hx name hname => ?_) body_reassures h hreturns hfaulted hcall
    obtain ⟨index, hindex, hne, hmem⟩ := hpresent x hx name hname
    exact ⟨index, hindex, hne, committed_subset_of_runs hs₀ .refl hruns hmem⟩

end Exact

section Deployed

/-- A database on which all migrations have been run. -/
def deployed (env : Migrations.Environment) : Database :=
  (loadMigrations env).map (fun migration => .record (migration.record 0)) ++
    ((loadMigrations env).flatMap (·.indexes)).eraseDups.map fun x => .index x.1 x.2

theorem deployed_sound : Sound (loadMigrations Migrations.plain) (deployed Migrations.plain) := by
  have hrecord : ∀ p ∈ loadMigrations Migrations.plain,
      .record (p.record 0) ∈ deployed Migrations.plain :=
    fun _ hp => List.mem_append_left _ (List.mem_map_of_mem hp)
  refine ⟨by decide +kernel, fun r hr => ?_⟩
  rcases List.mem_append.mp (mem_records.mp hr) with hnew | hindex
  · obtain ⟨migration, hmem, heq⟩ := List.mem_map.mp hnew
    cases heq
    obtain ⟨pre, post, hsplit⟩ := List.append_of_mem hmem
    refine ⟨pre, migration, post, hsplit, ⟨0, rfl⟩, fun p hp => ?_, fun x hx => ?_⟩
    · have hbefore : p ∈ loadMigrations Migrations.plain := hsplit ▸ List.mem_append_left _ hp
      exact mem_versions.mpr ⟨_, hrecord p hbefore, rfl⟩
    · refine List.mem_append_right _ (List.mem_map.mpr ⟨x, ?_, rfl⟩)
      exact List.mem_eraseDups.mpr (List.mem_flatMap.mpr ⟨migration, hmem, hx⟩)
  · obtain ⟨_, -, heq⟩ := List.mem_map.mp hindex
    cases heq

/-- A look at a database on which all migrations have been run. -/
theorem missing_exact_deployed : ∃ c : Run,
    (runners (fun _ => "") (loadMigrations Migrations.plain)).Reachable
      (Store.init (deployed Migrations.plain)) c ∧
    finished c 1 = some (.findMissing, some []) ∧
    ∃ index, index.name = "ttl_auth_throttle_bucket" ∧
      .index "auth_throttle_buckets" index ∈ c.store.committed := by
  have hrun : ((driver.play (Config.init (Store.init (deployed Migrations.plain)))
      (.start 1 .findMissing :: turns 7 1)).map (finished · 1)) =
      some (some (.findMissing, some [])) := by
    decide +kernel
  obtain ⟨c, hplay, hfinished⟩ := Option.map_eq_some_iff.mp hrun
  have hreachable : (runners (fun _ => "") (loadMigrations Migrations.plain)).Reachable
      (Store.init (deployed Migrations.plain)) c := Driver.play_runs hplay
  obtain ⟨th, hreturns, hcall⟩ := Config.returns_of_result (result_of_finished hfinished)
  refine ⟨c, hreachable, hfinished, ?_⟩
  refine (missing_exact deployed_sound hreachable hcall).1 [] hreturns
    ("auth_throttle_buckets", ["uq_auth_throttle_bucket_dimension_key",
      "ix_auth_throttle_bucket_key_version_expiry", "ttl_auth_throttle_bucket"])
    ?_ "ttl_auth_throttle_bucket" ?_ List.not_mem_nil
  · exact .tail _ (.tail _ (.tail _ (.tail _ (.tail _ (.head _)))))
  · exact .tail _ (.tail _ (.head _))

end Deployed

end Migrate
