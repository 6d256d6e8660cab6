import Mathlib.Data.Nat.Find
import BookLibrary.Migrations.Idempotence
import BookLibrary.Migrations.Releases
import BookLibrary.Transactions.Execution

/-!
# Migrations in their order

Any number of runners of any releases, each of them on a list that begins the list of the
newest. Whatever fails and whoever crashes, what is recorded is the beginning of that list,
and all that has been recorded has been done.
-/

namespace Migrate

open Documents Interleaving Sessions

variable {U : Type → Type} {migrations : List (Migration U)}

/-- The record is of a migration that has come in its turn and whose indexes are there. -/
def Earned (migrations : List (Migration U)) (s : Database) (r : MigrationRecord) : Prop :=
  ∃ pre migration post, migrations = pre ++ migration :: post ∧
    (∃ date, r = migration.record date) ∧ (∀ p ∈ pre, p.version ∈ s.versions) ∧
    ∀ x ∈ migration.indexes, .index x.1 x.2 ∈ s

structure Sound (migrations : List (Migration U)) (s : Database) : Prop where
  keyed : (s.map Document.key).Nodup
  earned : ∀ r ∈ s.records, Earned migrations s r

theorem Sound.nil : Sound migrations [] := ⟨List.nodup_nil, nofun⟩

section Sound

variable {s s' : Database}

theorem versions_subset (h : s ⊆ s') : s.versions ⊆ s'.versions := by
  intro version hv
  obtain ⟨r, hr, hversion⟩ := mem_versions.mp hv
  exact mem_versions.mpr ⟨r, h hr, hversion⟩

theorem Earned.mono {r : MigrationRecord} (h : Earned migrations s r) (hs : s ⊆ s') :
    Earned migrations s' r := by
  obtain ⟨pre, migration, post, heq, hrecord, hpre, hindexes⟩ := h
  exact ⟨pre, migration, post, heq, hrecord, fun p hp => versions_subset hs (hpre p hp),
    fun x hx => hs (hindexes x hx)⟩

/-- The versions recorded are those of the first migrations of the list. -/
theorem Sound.exists_take (h : Sound migrations s) : ∃ n, ∀ version,
    version ∈ s.versions ↔ version ∈ (migrations.take n).map (·.version) := by
  classical
  -- as many as there are of which all are recorded
  let Recorded (n : ℕ) : Prop := n ≤ migrations.length ∧ ∀ p ∈ migrations.take n, p.version ∈ s.versions
  have hzero : Recorded 0 := ⟨Nat.zero_le _, nofun⟩
  have hspec : Recorded (Nat.findGreatest Recorded migrations.length) :=
    Nat.findGreatest_spec (Nat.zero_le _) hzero
  refine ⟨Nat.findGreatest Recorded migrations.length, fun version => ⟨fun hv => ?_, fun hv => ?_⟩⟩
  · obtain ⟨r, hr, rfl⟩ := mem_versions.mp hv
    obtain ⟨pre, migration, post, heq, ⟨date, rfl⟩, hpre, -⟩ := h.earned r (mem_records.mpr hr)
    have htake : migrations.take (pre.length + 1) = pre ++ [migration] := by
      rw [heq, List.take_append]
      simp
    have hrecorded : Recorded (pre.length + 1) := by
      refine ⟨by rw [heq]; simp, fun p hp => ?_⟩
      rw [htake] at hp
      rcases List.mem_append.mp hp with hp | hp
      · exact hpre p hp
      · rw [List.mem_singleton.mp hp]
        exact hv
    have hle : pre.length + 1 ≤ Nat.findGreatest Recorded migrations.length :=
      Nat.le_findGreatest hrecorded.1 hrecorded
    refine List.mem_map.mpr ⟨migration, List.take_subset_take_left _ hle ?_, rfl⟩
    rw [htake]
    exact List.mem_append_right _ (List.mem_singleton_self _)
  · obtain ⟨p, hp, rfl⟩ := List.mem_map.mp hv
    exact hspec.2 p hp

theorem Sound.nodup_versions (h : Sound migrations s) : s.versions.Nodup := by
  have hkeys := h.keyed
  clear h
  induction s with
  | nil => exact List.nodup_nil
  | cons d s ih =>
    rw [List.map_cons, List.nodup_cons] at hkeys
    cases d with
    | index => exact ih hkeys.2
    | record r =>
      refine List.nodup_cons.mpr ⟨fun hv => hkeys.1 ?_, ih hkeys.2⟩
      obtain ⟨r', hr', hversion⟩ := mem_versions.mp hv
      exact List.mem_map.mpr ⟨_, hr', congrArg Key.version hversion⟩

/-- What is recorded has been done. -/
theorem Sound.indexes (h : Sound migrations s) (hversions : (migrations.map (·.version)).Nodup)
    {migration : Migration U} (hmem : migration ∈ migrations)
    (hrecorded : migration.version ∈ s.versions) : ∀ x ∈ migration.indexes, .index x.1 x.2 ∈ s := by
  obtain ⟨r, hr, hversion⟩ := mem_versions.mp hrecorded
  obtain ⟨pre, other, post, heq, ⟨date, rfl⟩, -, hindexes⟩ := h.earned r (mem_records.mpr hr)
  have hother : other ∈ migrations := by
    rw [heq]
    exact List.mem_append_right _ List.mem_cons_self
  have hsame : other = migration := List.inj_on_of_nodup_map hversions hother hmem hversion
  exact hsame ▸ hindexes

end Sound

section Invariant

variable {ι : Type} [DecidableEq ι]

structure Inv (migrations : List (Migration U)) (s : Store Database Document)
    (J : List (Entry ι Call Event)) : Prop where
  ledger : Ledger (schema U) s J
  grown : Grown (schema U) Eq sighted s J
  settled : Settled (schema U) Eq s J
  earned : Everywhere (schema U) (fun v => ∀ k r, v.findByKey k = some (.record r) →
    Earned migrations s.committed r) s

variable {s s' : Store Database Document} {J : List (Entry ι Call Event)} {i : ι} {call : Call}
  {β : Type} {op : Op U β} {r : Option β}

theorem Inv.init {s₀ : Database} (h : Sound migrations s₀) :
    Inv migrations (Store.init s₀) ([] : List (Entry ι Call Event)) where
  ledger := Ledger.init (schema U) (decide_eq_true h.keyed)
  grown := Grown.init s₀
  settled := Settled.init
  earned := ⟨fun _ r hr => h.earned r (mem_records.mpr (mem_of_findByKey hr).1), nofun⟩

theorem Inv.keyed (h : Inv migrations s J) : (s.committed.map Document.key).Nodup :=
  of_decide_eq_true h.ledger.indexed

theorem Inv.sound (h : Inv migrations s J) : Sound migrations s.committed where
  keyed := h.keyed
  earned r hr := h.earned.committed _ r (findByKey_of_mem h.keyed (mem_records.mp hr))

/-- What a caller has been shown outside of transactions is there. -/
theorem Inv.shown (h : Inv migrations s J) {ev : Event} (hev : ev ∈ own i J) {d : Document}
    (hd : ev.Shows sighted none d) : d ∈ s.committed := by
  obtain ⟨call', he⟩ := mem_own.mp hev
  obtain ⟨d', hd', rfl⟩ := h.grown.shown _ he none d s.committed hd rfl
  exact (mem_of_findByKey hd').1

theorem Inv.created (h : Inv migrations s J) {x : String × Index} (hx : Created (own i J) x) :
    .index x.1 x.2 ∈ s.committed :=
  h.shown hx ⟨rfl, List.mem_singleton_self _⟩

theorem Inv.recorded (h : Inv migrations s J) {version : String}
    (hv : Before (own i J) version) : version ∈ s.committed.versions := by
  rcases hv with ⟨records, hsaw, r, hr, hversion⟩ | ⟨n, r, hcommitted, hwrote, hversion⟩
  · exact mem_versions.mpr ⟨r, h.shown hsaw ⟨rfl, List.mem_map_of_mem hr⟩, hversion⟩
  · obtain ⟨_, he⟩ := mem_own.mp hcommitted
    obtain ⟨_, he'⟩ := mem_own.mp hwrote
    obtain ⟨d, hd, rfl⟩ := h.settled.there _ he _ he' n _ _ rfl rfl _ (List.mem_singleton_self _)
    exact mem_versions.mpr ⟨r, (mem_of_findByKey hd).1, hversion⟩

/-- A record is inserted in its turn. -/
theorem Legal.insertOne {l : List Event} (h : Legal migrations l β op) {session : Option ℕ}
    {document : MigrationRecord} (hw : op.writes = some (session, .insertOne document)) :
    ∃ migration, Next migrations l migration ∧ (∃ date, document = migration.record date) ∧
      ∀ x ∈ migration.indexes, Created l x := by
  cases op with
  | find | draw => cases hw
  | change c =>
    cases c with
    | write session' w =>
      cases hw
      cases session with
      | none => cases h
      | some n => exact h.2
    | _ => cases hw

theorem Inv.committed_subset (h : Inv migrations s J)
    (heff : Effect (schema U) seen s op r (op.note seen β r) s') : s.committed ⊆ s'.committed := by
  intro d hd
  have hgrows : Grows (schema U) Eq s.committed s'.committed :=
    Viewed.committed_step lawful (fun _ => rfl) h.grown.view heff
      fun w _ _ => grows_write w h.ledger.indexed
  obtain ⟨d', hd', rfl⟩ := hgrows _ d (findByKey_of_mem h.keyed hd)
  exact (mem_of_findByKey hd').1

theorem Inv.step {toISOString : Date → String} (h : Inv migrations s J)
    (hop : Legal migrations (own i J) β op)
    (happlies : (runners toISOString migrations).Applies op s r s') :
    Inv migrations s' (record i call (op.note seen β r) ++ J) := by
  have heff : Effect (schema U) seen s op r (op.note seen β r) s' := effect_of_applies happlies
  have hgrow : ∀ session w v, r.isSome = true → op.writes = some (session, w) →
      (schema U).view s session = some v →
      Grows (schema U) Eq v ((schema U).putAll ((schema U).write w v).docs v) :=
    fun _ w _ _ _ hv => grows_write w (h.ledger.view_indexed hv)
  refine ⟨h.ledger.step lawful hop.disciplined heff, h.grown.step lawful ordered h.ledger heff hgrow,
    h.settled.step lawful ordered h.ledger h.grown heff fun w hr hw => hgrow none w _ hr hw rfl, ?_⟩
  have hsubset := h.committed_subset heff
  refine (h.earned.step heff ?_ ?_).imp fun v hv k r hk => (hv k r hk).mono hsubset
  · -- of the writes only the insertion of a record adds one
    intro session w v _ hw hview hearned k document hk
    rcases lawful.find_putAll_cases hk with hnew | hold
    · rcases write_cases w v with hdocs | ⟨inserted, rfl, hdocs, -⟩ | ⟨_, _, -, hdocs, -⟩
      · exact absurd (hdocs ▸ hnew) List.not_mem_nil
      · cases List.mem_singleton.mp (hdocs ▸ hnew)
        obtain ⟨migration, ⟨pre, post, heq, hpre⟩, hrecord, hcreated⟩ := hop.insertOne hw
        exact ⟨pre, migration, post, heq, hrecord, fun p hp => h.recorded (hpre p hp),
          fun x hx => h.created (hcreated x hx)⟩
      · cases List.mem_singleton.mp (hdocs ▸ hnew)
    · exact hearned k document hold
  · -- a commit takes each record from the view of the transaction or leaves that of the store
    intro n t _ _ ht hfree _ k document hk
    rcases lawful.commit_find hfree k with ⟨hview, -⟩ | ⟨hstore, -⟩
    · exact h.earned.views n t ht k document (hview.symm.trans hk)
    · exact h.earned.committed k document (hstore.symm.trans hk)

def contract (toISOString : Date → String) (migrations : List (Migration U)) :
    Contract ι (runners toISOString migrations) where
  inv := Inv migrations
  legal _ _ l _ op := Legal migrations l _ op
  post call _ l r := ∀ lines, r = .ok lines → Reached toISOString migrations l lines call
  inv_call h _ hop happlies := h.step hop happlies
  inv_env h henv := by
    obtain rfl := henv
    exact h
  conforms call := (body_walk call).mono fun _ _ _ h => h.2

variable {toISOString : Date → String} {s₀ : Database}
  {c c' : Config ι Call (Op U) (Store Database Document) (Except Failure (List String)) Event}

theorem wellFormed_of_reachable (hs₀ : Sound migrations s₀)
    (h : (runners toISOString migrations).Reachable (Store.init s₀) c) :
    WellFormed (contract toISOString migrations) c :=
  (WellFormed.init (Inv.init hs₀)).runs h

/-- Nothing that is recorded is ever changed or struck. -/
theorem committed_subset_of_runs (hs₀ : Sound migrations s₀)
    (h : (runners toISOString migrations).Reachable (Store.init s₀) c)
    (hruns : (runners toISOString migrations).Runs anyCall c c') :
    c.store.committed ⊆ c'.store.committed := by
  refine WellFormed.runs_induct (P := fun s _ => c.store.committed ⊆ s.committed)
    (fun hinv hs _ _ _ happlies => ?_) (fun _ hs henv => ?_) (wellFormed_of_reachable hs₀ h) hruns
    (List.Subset.refl _)
  · exact List.Subset.trans hs (hinv.committed_subset (effect_of_applies happlies))
  · obtain rfl := henv
    exact hs

/-- An index other than that of the records is created in its migration's turn. -/
theorem createIndex_in_turn (w : WellFormed (contract toISOString migrations) c) {i : ι}
    {th : Thread Call (Op U) (Except Failure (List String))} {collection : String} {index : Index}
    (h : c.Issues i th (.change (.write none (.createIndex collection index))))
    (hindex : (collection, index) ≠ ("migration_records", recordsIndex)) :
    ∃ pre migration post, migrations = pre ++ migration :: post ∧
      (collection, index) ∈ migration.indexes ∧
      ∀ p ∈ pre, p.version ∈ c.store.committed.versions := by
  rcases w.legal_of_issues h with heq | ⟨migration, ⟨pre, post, heq, hpre⟩, hmem⟩
  · exact absurd heq hindex
  · exact ⟨pre, migration, post, heq, hmem, fun p hp => w.inv.recorded (hpre p hp)⟩

/-- In every run of any number of runners, of any releases, that fail, retry and crash: what is
recorded is a beginning of the list, and its indexes are there; nothing recorded is ever changed
or struck; no index is created before all migrations before its own are recorded; and when a
runner ends well, all of its release is recorded. -/
theorem recorded_in_order (hversions : (migrations.map (·.version)).Nodup)
    (hs₀ : Sound migrations s₀)
    (h : (runners toISOString migrations).Reachable (Store.init s₀) c) :
    (∃ n, (∀ version, version ∈ c.store.committed.versions ↔
        version ∈ (migrations.take n).map (·.version)) ∧
      ∀ p ∈ migrations.take n, ∀ x ∈ p.indexes, .index x.1 x.2 ∈ c.store.committed) ∧
    c.store.committed.versions.Nodup ∧
    (∀ c', (runners toISOString migrations).Runs anyCall c c' →
      c.store.committed.records ⊆ c'.store.committed.records) ∧
    (∀ i th collection index, c.Issues i th (.change (.write none (.createIndex collection index))) →
      (collection, index) ≠ ("migration_records", recordsIndex) →
      ∃ pre migration post, migrations = pre ++ migration :: post ∧
        (collection, index) ∈ migration.indexes ∧
        ∀ p ∈ pre, p.version ∈ c.store.committed.versions) ∧
    ∀ i th release lines, c.Returns i th (.ok lines) → th.call = .up release →
      ∀ p ∈ migrations.take release, p.version ∈ c.store.committed.versions := by
  have w := wellFormed_of_reachable hs₀ h
  have hsound := w.inv.sound
  obtain ⟨n, hn⟩ := hsound.exists_take
  refine ⟨⟨n, hn, fun p hp => ?_⟩, hsound.nodup_versions, fun c' hruns r hr => ?_,
    fun i th collection index hissues hindex => createIndex_in_turn w hissues hindex,
    fun i th release lines hreturns hcall p hp => ?_⟩
  · exact hsound.indexes hversions (List.mem_of_mem_take hp) ((hn _).mpr (List.mem_map_of_mem hp))
  · exact mem_records.mpr (committed_subset_of_runs hs₀ h hruns (mem_records.mp hr))
  · have hreached := w.post_of_returns hreturns lines rfl
    rw [hcall] at hreached
    exact w.inv.recorded (hreached p hp)

/-- What the status tells of is recorded, then and from then on. -/
theorem status_recorded (hs₀ : Sound migrations s₀)
    (h : (runners toISOString migrations).Reachable (Store.init s₀) c) {i : ι}
    {th : Thread Call (Op U) (Except Failure (List String))} {release : ℕ} {lines : List String}
    (hreturns : c.Returns i th (.ok lines)) (hcall : th.call = .status release) :
    ∃ applied, (∀ version r, getEntry version applied = some r →
        r ∈ c.store.committed.records ∧ r.version = version) ∧
      lines = if (migrations.take release).isEmpty then ["No migration files found."]
        else (migrations.take release).map fun migration =>
          statusLine toISOString applied migration.toMigrationDefinition := by
  have w := wellFormed_of_reachable hs₀ h
  have hreached := w.post_of_returns hreturns lines rfl
  rw [hcall] at hreached
  obtain ⟨applied, ⟨records, hsaw, hentries⟩, hlines⟩ := hreached
  refine ⟨applied, fun version r hr => ⟨?_, (hentries version r hr).2⟩, hlines⟩
  exact mem_records.mpr (w.inv.shown hsaw ⟨rfl, List.mem_map_of_mem (hentries version r hr).1⟩)

end Invariant

section Schedules

/-- The documents of other collections are none. -/
def answerDocuments : (β : Type) → DocumentCall β → β
  | _, .inl (.updateMany ..) => ()
  | _, .inr .findStaffUsers => []
  | _, .inr .findMembers => []
  | _, .inr .findAuthIdentifiers => []
  | _, .inr .newObjectId => ""
  | _, .inr (.upsertIdentifier _) => ()
  | _, .inr (.upsertEvent _) => ()

def answer : (β : Type) → Query DocumentCall β → Database → β
  | _, .inl .findRecords, s => s.records.insertionSort (·.version ≤ ·.version)
  | _, .inl (.listIndexes collection), s => s.indexes collection
  | _, .inr call, _ => answerDocuments _ call

/-- Errors are transient, and a callback is run again once. -/
def draw : (β : Type) → Draw β → Date → β
  | _, .startSession, _ => ()
  | _, .now, date => date
  | _, .lastError, _ => ⟨true, ""⟩
  | _, .retries, _ => 1

def player : Player (schema DocumentCall) Draw drawFails Date where
  answer := answer
  answer_answers q s := by
    cases q with
    | inl q => cases q <;> rfl
    | inr q => trivial
  drawn := draw
  drawsFail _ _ := false
  drawsFail_fails h := by cases h

abbrev Run :=
  Config ℕ Call (Op DocumentCall) (Store Database Document) (Except Failure (List String)) Event

def driver : Driver (runners (fun _ => "") (loadMigrations Migrations.plain))
    (anyCall (ι := ℕ)) Date :=
  player.driver _ (fun _ _ _ _ _ _ => true) fun _ => trivial

/-- The next `n` calls of caller `i`. -/
def turns (n i : ℕ) : List (Move ℕ Call Date) := List.replicate n (.reply i 0)

def raced : List (Move ℕ Call Date) :=
  .start 1 (.up 1) :: turns 8 1 ++ .crash 1 :: .start 2 (.up 1) :: turns 8 2 ++
    .start 3 (.up 1) :: turns 8 3 ++ .reply 2 0 :: .lose 3 :: turns 7 3

/-- The call of a caller that has ended, and what it printed if it ended well. -/
def finished (c : Run) (i : ℕ) : Option (Call × Option (List String)) :=
  (c.result i).map fun r => (r.1, r.2.toOption)

theorem result_of_finished {c : Run} {i : ℕ} {call : Call} {lines : List String}
    (h : finished c i = some (call, some lines)) : c.result i = some (call, .ok lines) := by
  obtain ⟨⟨call', r⟩, hresult, heq⟩ := Option.map_eq_some_iff.mp h
  cases r with
  | error e => cases heq
  | ok lines' =>
    cases heq
    exact hresult

/-- The first runner crashes before its commit. The third loses to the second: it runs its
callback again, and finds the record. -/
theorem recorded_in_order_raced : ∃ c : Run,
    (runners (fun _ => "") (loadMigrations Migrations.plain)).Reachable (Store.init []) c ∧
    finished c 2 = some (.up 1, some ["Applied 000 migration-record"]) ∧
    finished c 3 = some (.up 1, none) ∧
    ∀ p ∈ (loadMigrations Migrations.plain).take 1, p.version ∈ c.store.committed.versions := by
  have hrun : ((driver.play (Config.init (Store.init [])) raced).map fun c =>
      (finished c 2, finished c 3)) =
      some (some (.up 1, some ["Applied 000 migration-record"]), some (.up 1, none)) := by
    decide +kernel
  obtain ⟨c, hplay, hfinished⟩ := Option.map_eq_some_iff.mp hrun
  have hreachable : (runners (fun _ => "") (loadMigrations Migrations.plain)).Reachable
      (Store.init []) c := Driver.play_runs hplay
  have hsecond : finished c 2 = some (.up 1, some ["Applied 000 migration-record"]) :=
    congrArg (·.1) hfinished
  obtain ⟨th, hreturns, hcall⟩ := Config.returns_of_result (result_of_finished hsecond)
  refine ⟨c, hreachable, hsecond, congrArg (·.2) hfinished, ?_⟩
  have hversions : ((loadMigrations Migrations.plain).map (·.version)).Nodup := by decide
  exact (recorded_in_order hversions Sound.nil hreachable).2.2.2.2 2 th 1 _ hreturns hcall

end Schedules

end Migrate
