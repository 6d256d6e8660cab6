import BookLibrary.Migrations.RunnerWalks

/-!
# The releases

Each of the migrations ends well only after all its indexes have been created.
-/

namespace Migrate

open Documents Interleaving Sessions

section Creating

variable {U : Type → Type} {α γ : Type} {indexes : List (String × Index)}

/-- A program that issues calls of the kind `Own` and ends well only after it has created the
indexes `made`. -/
def Creating (indexes made : List (String × Index)) (x : Handler U α) : Prop :=
  ∀ (Call ρ : Type) (body : Call → Prog (Op U) ρ) (fl : Bool) (l : List Event),
    Conduct body (fun _ => Own indexes) (fun m r => ∀ a, r = .ok a → ∀ x ∈ made, Created m x) fl l x

theorem creates_of_creating {migration : MigrationDefinition U}
    (h : ∀ session, Creating indexes indexes (migration.up session)) :
    migration.Creates indexes := fun _ _ body session fl l =>
  (h session _ _ body fl l).mono fun _ _ _ h => ⟨h.1, h.2 ()⟩

theorem creating_then {made made' : List (String × Index)} {x : Handler U γ} {f : γ → Handler U α}
    (hx : Creating indexes made x) (hf : ∀ a, Creating indexes made' (f a)) :
    Creating indexes (made ++ made') (x >>= f) := by
  intro Call ρ body fl l
  refine walk_then (hx _ _ body fl l) (fun fl m a _ hm => ?_) nofun
  refine (hf a _ _ body fl m).mono fun _ m' r hm' => ⟨hm'.1, fun b hb x hx => ?_⟩
  rcases List.mem_append.mp hx with hx | hx
  · exact hm'.1.subset (hm a rfl x hx)
  · exact hm'.2 b hb x hx

/-- After a program that creates nothing. -/
theorem creating_next {made : List (String × Index)} {x : Handler U γ} {f : γ → Handler U α}
    (hx : Creating indexes [] x) (hf : ∀ a, Creating indexes made (f a)) :
    Creating indexes made (x >>= f) := creating_then hx hf

theorem creating_pure {a : α} : Creating indexes [] (pure a : Handler U α) :=
  fun _ _ _ _ _ => pure_walk fun _ _ _ hx => absurd hx List.not_mem_nil

/-- A call that is not about indexes. -/
theorem creating_perform {β : Type} {op : Op U β} (h : Own indexes β op) :
    Creating indexes [] (perform op) := fun _ _ _ _ _ =>
  perform_walk h (fun _ => trivial) (fun _ _ _ _ _ hx => absurd hx List.not_mem_nil) nofun

theorem creating_createIndex {x : String × Index} (hx : x ∈ indexes) :
    Creating indexes [x] (createIndex x.1 x.2 : Handler U Unit) := fun _ _ _ _ _ =>
  (createIndex_walk hx fun _ => trivial).mono fun _ _ _ hm =>
    ⟨hm.1, fun _ ha _ hy => List.mem_singleton.mp hy ▸ hm.2 ha⟩

theorem creating_createIndexes {made : List (String × Index)} (h : ∀ x ∈ made, x ∈ indexes) :
    Creating indexes made (createIndexes made : Handler U Unit) := by
  induction made with
  | nil => exact creating_pure
  | cons x made ih =>
    exact creating_then (creating_createIndex (h x List.mem_cons_self)) fun _ =>
      ih fun y hy => h y (List.mem_cons_of_mem _ hy)

/-- A program of the backfill creates no index. -/
theorem creating_lift {ε : Type} (g : ε → Failure) (x : Action Migrations.Op ε α) :
    Creating indexes [] (Action.lift (fun op => .find none (.inr (.inr op))) g x :
      Handler DocumentCall α) := by
  intro Call ρ body fl l
  have hlift : ∀ (p : Prog Migrations.Op (Except ε α)) (fl : Bool) (m : List Event), l <:+ m →
      Conforms (system (schema DocumentCall) drawFails seen body) (fun _ _ _ op => Own indexes _ op)
        (fun _ m _ => l <:+ m) fl m (p.lift fun op => .find none (.inr (.inr op))) := by
    intro p
    induction p with
    | done a => exact fun _ _ hm => hm
    | call op next ih =>
      intro fl m hm
      refine ⟨rfl, fun b _ => ih _ _ _ (hm.trans (List.suffix_append _ _)), fun _ r _ => ?_⟩
      exact ih _ _ _ (hm.trans (List.suffix_append _ _))
  refine Conforms.bind ((hlift x.run fl l (List.suffix_refl l)).mono fun _ m r hm => ?_)
  exact ⟨hm, fun _ _ _ hx => absurd hx List.not_mem_nil⟩

theorem creates_createIndexes {migration : MigrationDefinition U}
    (h : ∀ session, migration.up session = createIndexes indexes) : migration.Creates indexes := by
  refine creates_of_creating fun session => ?_
  rw [h]
  exact creating_createIndexes fun _ hx => hx

end Creating

def migration003Indexes : List (String × Index) := staffIndexes ++ (memberIndexes ++ authIndexes)

theorem migration003_creates (env : Migrations.Environment) :
    (migration003 env).Creates migration003Indexes := by
  have update : ∀ {collection : String} {filter : List (String × Condition)}
      {changes : List Change}, Creating migration003Indexes []
        (updateMany collection filter changes) := creating_perform rfl
  have clock : Creating migration003Indexes [] (perform (.draw .now) : Handler DocumentCall Date) :=
    creating_perform trivial
  have hstaff : ∀ x ∈ staffIndexes, x ∈ migration003Indexes :=
    fun _ hx => List.mem_append_left _ hx
  have hmember : ∀ x ∈ memberIndexes, x ∈ migration003Indexes :=
    fun _ hx => List.mem_append_right _ (List.mem_append_left _ hx)
  have hauth : ∀ x ∈ authIndexes, x ∈ migration003Indexes :=
    fun _ hx => List.mem_append_right _ (List.mem_append_right _ hx)
  refine creates_of_creating fun session => ?_
  have hup : Creating migration003Indexes (staffIndexes ++ (memberIndexes ++ (authIndexes ++ [])))
      ((migration003 env).up session) := by
    refine creating_next clock fun date => ?_
    refine creating_next update fun _ => creating_next update fun _ => ?_
    refine creating_next update fun _ => creating_next update fun _ => ?_
    refine creating_then (creating_createIndexes hstaff) fun _ => creating_next update fun _ => ?_
    refine creating_then (creating_createIndexes hmember) fun _ => ?_
    exact creating_then (creating_createIndexes hauth) fun _ => creating_lift _ _
  rwa [List.append_nil] at hup

/-- The migrations of the newest release, in the order of the names of their files. -/
def loadMigrations (env : Migrations.Environment) : List (Migration DocumentCall) :=
  [⟨migration000, migration000Indexes, creates_createIndexes fun _ => rfl⟩,
    ⟨migration001, migration001Indexes, creates_createIndexes fun _ => rfl⟩,
    ⟨migration002, migration002Indexes, creates_createIndexes fun _ => rfl⟩,
    ⟨migration003 env, migration003Indexes, migration003_creates env⟩]

end Migrate
