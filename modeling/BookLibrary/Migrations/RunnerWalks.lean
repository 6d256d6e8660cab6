import BookLibrary.Migrations.Versions
import BookLibrary.Transactions.Settlement

/-!
# What a runner issues

The database of the runners keeps the laws of the document store, and a runner goes through
its release in order: it comes to a migration when it knows of all before it that they are
recorded, and records it after all its indexes have been created.
-/

namespace Migrate

open Documents Interleaving Sessions

variable {U : Type → Type}

section Documents

variable {s : Database} {d : Document} {k : Key}

theorem findByKey_put : (s.put d).findByKey k = if d.key = k then some d else s.findByKey k := by
  rw [Database.findByKey, Database.put, List.find?_append]
  by_cases hk : d.key = k
  · subst hk
    have hnone : (s.filter fun d' => decide (d'.key ≠ d.key)).find?
        (fun x => decide (x.key = d.key)) = none := by
      rw [List.find?_eq_none]
      intro x hx
      simpa using (List.mem_filter.mp hx).2
    rw [hnone, if_pos rfl]
    simp
  · have hkept : (s.filter fun d' => decide (d'.key ≠ d.key)).find? (fun x => decide (x.key = k)) =
        s.find? fun x => decide (x.key = k) := by
      rw [List.find?_filter]
      congr 1
      funext x
      by_cases hx : x.key = k
      · simp [hx, Ne.symm hk]
      · simp [hx]
    rw [hkept, if_neg hk, List.find?_singleton, if_neg (by simpa using hk), Option.or_none]
    rfl

theorem nodup_put (h : (s.map Document.key).Nodup) : ((s.put d).map Document.key).Nodup := by
  rw [Database.put, List.map_append, List.nodup_append]
  refine ⟨h.sublist (List.filter_sublist.map _), List.nodup_singleton _, ?_⟩
  intro k hk k' hk'
  obtain ⟨x, hx, rfl⟩ := List.mem_map.mp hk
  rw [List.map_singleton, List.mem_singleton] at hk'
  subst hk'
  exact of_decide_eq_true (List.mem_filter.mp hx).2

theorem mem_of_findByKey (h : s.findByKey k = some d) : d ∈ s ∧ d.key = k :=
  ⟨List.mem_of_find?_eq_some h, by simpa using List.find?_some h⟩

theorem findByKey_of_mem (h : (s.map Document.key).Nodup) (hd : d ∈ s) :
    s.findByKey d.key = some d := by
  induction s with
  | nil => cases hd
  | cons x s ih =>
    rw [List.map_cons, List.nodup_cons] at h
    rcases List.mem_cons.mp hd with rfl | hd
    · exact List.find?_cons_of_pos (decide_eq_true rfl)
    · have hne : x.key ≠ d.key := fun heq => h.1 (heq ▸ List.mem_map_of_mem hd)
      rw [Database.findByKey, List.find?_cons_of_neg (by simpa using hne)]
      exact ih h.2 hd

theorem mem_records {r : MigrationRecord} : r ∈ s.records ↔ .record r ∈ s := by
  rw [Database.records, List.mem_filterMap]
  constructor
  · rintro ⟨d, hd, hr⟩
    cases d with
    | record r' =>
      cases hr
      exact hd
    | index => cases hr
  · intro hr
    exact ⟨_, hr, rfl⟩

theorem mem_indexes {collection : String} {index : Index} :
    index ∈ s.indexes collection ↔ .index collection index ∈ s := by
  rw [Database.indexes, List.mem_filterMap]
  constructor
  · rintro ⟨d, hd, hi⟩
    cases d with
    | record => cases hi
    | index collection' i =>
      simp only [Document.index?] at hi
      split at hi
      · next hc =>
        cases hi
        exact hc ▸ hd
      · cases hi
  · intro hi
    exact ⟨_, hi, if_pos rfl⟩

theorem mem_versions {v : String} : v ∈ s.versions ↔ ∃ r, .record r ∈ s ∧ r.version = v := by
  simp only [Database.versions, List.mem_map, mem_records]

end Documents

section Writes

/-- A write leaves one document or none. -/
theorem write_cases (w : Write) (s : Database) : (write w s).docs = [] ∨
    (∃ r, w = .insertOne r ∧ (write w s).docs = [.record r] ∧
      s.findByKey (.version r.version) = none) ∨
    ∃ collection index, w = .createIndex collection index ∧
      (write w s).docs = [.index collection index] ∧
      ∀ x, s.findByKey (.index collection index.name) = some x → x = .index collection index := by
  cases w with
  | insertOne r =>
    cases hfind : s.findByKey (.version r.version) with
    | some x =>
      left
      simp [write, hfind, WriteResult.docs]
    | none =>
      right
      left
      exact ⟨r, rfl, by simp [write, hfind, WriteResult.docs], hfind⟩
  | createIndex collection index =>
    cases hfind : s.findByKey (.index collection index.name) with
    | some x =>
      by_cases hx : x = .index collection index
      · right
        right
        refine ⟨collection, index, rfl, ?_, fun y hy => ?_⟩
        · simp [write, hfind, hx, WriteResult.docs]
        · exact (Option.some.inj (hfind.symm.trans hy)).symm.trans hx
      · left
        simp [write, hfind, hx, WriteResult.docs]
    | none =>
      by_cases hkeys : s.any (·.hasKeys collection index.keys) = true
      · left
        simp [write, hfind, hkeys, WriteResult.docs]
      · right
        right
        refine ⟨collection, index, rfl, by simp [write, hfind, hkeys, WriteResult.docs], ?_⟩
        intro x hx
        exact absurd (hfind.symm.trans hx) (Option.some_ne_none x).symm

theorem docs_createIndex {collection : String} {index : Index} {s : Database}
    {docs : List Document} (h : write (.createIndex collection index) s = .written docs) :
    docs = [.index collection index] := by
  simp only [write] at h
  split at h
  · split at h
    · next heq =>
      cases h
      rw [heq]
    · cases h
  · split at h
    · cases h
    · cases h
      rfl

theorem docs_insertOne {r : MigrationRecord} {s : Database} {docs : List Document}
    (h : write (.insertOne r) s = .written docs) : docs = [.record r] := by
  simp only [write] at h
  split at h
  · cases h
  · cases h
    rfl

theorem lawful : (schema U).Lawful where
  find_put k d s := findByKey_put
  indexed_write w s h := by
    have hkeys : (s.map Document.key).Nodup := of_decide_eq_true h
    refine decide_eq_true ?_
    rcases write_cases w s with hdocs | ⟨r, -, hdocs, -⟩ | ⟨c, i, -, hdocs, -⟩
    · rw [show (schema U).write w s = write w s from rfl, hdocs]
      exact hkeys
    · rw [show (schema U).write w s = write w s from rfl, hdocs]
      exact nodup_put hkeys
    · rw [show (schema U).write w s = write w s from rfl, hdocs]
      exact nodup_put hkeys
  keys_write w s _ := by
    rcases write_cases w s with hdocs | ⟨r, -, hdocs, -⟩ | ⟨c, i, -, hdocs, -⟩
    all_goals
      rw [show (schema U).write w s = write w s from rfl, hdocs]
      simp

/-- The documents that an answer shows. -/
def sighted : Sighting → List Document
  | .records records => records.map .record
  | .indexes collection indexes => indexes.map (.index collection)

theorem ordered : Ordered (schema U) seen Eq sighted where
  refl _ := rfl
  trans := Eq.trans
  sighted {β q v b} hindexed hanswers e he d hd := by
    have hkeys : (v.map Document.key).Nodup := of_decide_eq_true hindexed
    refine findByKey_of_mem hkeys ?_
    cases q with
    | inl q =>
      cases q with
      | findRecords =>
        obtain rfl := List.mem_singleton.mp he
        obtain ⟨r, hr, rfl⟩ := List.mem_map.mp hd
        obtain rfl : b = _ := hanswers
        exact mem_records.mp ((List.perm_insertionSort _ _).mem_iff.mp hr)
      | listIndexes collection =>
        obtain rfl := List.mem_singleton.mp he
        obtain ⟨i, hi, rfl⟩ := List.mem_map.mp hd
        obtain rfl : b = _ := hanswers
        exact mem_indexes.mp hi
    | inr q => cases he

/-- No document is ever changed. -/
theorem grows_write (w : Write) {v : Database} (h : (schema U).indexed v = true) :
    Grows (schema U) Eq v ((schema U).putAll (write w v).docs v) := by
  refine Grows.write lawful (fun _ => rfl) (fun d hd x hx => ?_) h
  rcases write_cases w v with hdocs | ⟨r, -, hdocs, hnone⟩ | ⟨c, i, -, hdocs, hsame⟩
  · rw [show (schema U).write w v = write w v from rfl, hdocs] at hd
    cases hd
  · rw [show (schema U).write w v = write w v from rfl, hdocs] at hd
    obtain rfl := List.mem_singleton.mp hd
    exact absurd (hnone.symm.trans hx) (Option.some_ne_none x).symm
  · rw [show (schema U).write w v = write w v from rfl, hdocs] at hd
    obtain rfl := List.mem_singleton.mp hd
    exact hsame x hx

end Writes

/-- The events of a caller tell of the index that it has been created. -/
def Created (l : List Event) (x : String × Index) : Prop :=
  .wrote none (.createIndex x.1 x.2) (.written [.index x.1 x.2]) ∈ l

section Conduct

variable {Call ρ α γ : Type} {body : Call → Prog (Op U) ρ}
  {legal : List Event → (β : Type) → Op U β → Prop} {fl : Bool} {l : List Event}

/-- A walk through a program whose calls are judged by `legal`. -/
abbrev Conduct (body : Call → Prog (Op U) ρ) (legal : List Event → (β : Type) → Op U β → Prop)
    (R : List Event → Except Failure α → Prop) (fl : Bool) (l : List Event) (x : Handler U α) :
    Prop :=
  Conforms (system (schema U) drawFails seen body) (fun _ l _ op => legal l _ op)
    (fun _ m r => l <:+ m ∧ R m r) fl l x.run

theorem walk_then {R : List Event → Except Failure γ → Prop}
    {R' : List Event → Except Failure α → Prop} {x : Handler U γ} {f : γ → Handler U α}
    (hx : Conduct body legal R fl l x)
    (hf : ∀ fl m a, l <:+ m → R m (.ok a) → Conduct body legal R' fl m (f a))
    (herr : ∀ m e, l <:+ m → R m (.error e) → R' m (.error e)) :
    Conduct body legal R' fl l (x >>= f) := by
  refine Conforms.run_then hx (fun fl m a h => ?_) fun fl m e h => ⟨h.1, herr m e h.1 h.2⟩
  exact (hf fl m a h.1 h.2).mono fun _ m' r h' => ⟨h.1.trans h'.1, h'.2⟩

theorem perform_walk {β : Type} {op : Op U β} {R : List Event → Except Failure β → Prop}
    (hop : legal l β op) (hlast : ∀ l, legal l _ (.draw .lastError))
    (hok : ∀ b, (system (schema U) drawFails seen body).Answers op b →
      R (op.note seen β (some b) ++ l) (.ok b))
    (herr : ∀ m e, R m (.error e)) : Conduct body legal R fl l (perform op) :=
  perform_conforms hop (fun _ _ => hlast _) (fun b hb => ⟨List.suffix_append _ _, hok b hb⟩)
    fun _ _ _ => ⟨List.suffix_append _ _, herr _ _⟩

theorem pure_walk {R : List Event → Except Failure α → Prop} {a : α} (h : R l (.ok a)) :
    Conduct body legal R fl l (pure a) :=
  Conforms.run_pure ⟨List.suffix_refl l, h⟩

theorem throw_walk {R : List Event → Except Failure α → Prop} {e : Failure}
    (h : R l (.error e)) : Conduct body legal R fl l (throw e : Handler U α) :=
  Conforms.run_throw ⟨List.suffix_refl l, h⟩

theorem createIndex_walk {collection : String} {index : Index}
    (h : legal l _ (.change (.write none (.createIndex collection index))))
    (hlast : ∀ l, legal l _ (.draw .lastError)) :
    Conduct body legal (fun m r => r = .ok () → Created m (collection, index)) fl l
      (createIndex collection index) := by
  refine walk_then (R := fun m r => ∀ docs, r = .ok (.written docs) → Created m (collection, index))
    (perform_walk h hlast (fun b hb docs hdocs => ?_) nofun) (fun fl m b _ hm => ?_) nofun
  · obtain ⟨s, _, hwrite, -⟩ := hb
    cases hdocs
    obtain rfl := docs_createIndex hwrite.symm
    exact List.mem_cons_self
  · cases b with
    | written docs => exact pure_walk fun _ => hm docs rfl
    | unmatched => exact throw_walk nofun
    | duplicateKey => exact throw_walk nofun

theorem insertOne_walk {session : ℕ} {r : MigrationRecord}
    (h : legal l _ (.change (.write (some session) (.insertOne r))))
    (hlast : ∀ l, legal l _ (.draw .lastError)) :
    Conduct body legal (fun m a => a = .ok () →
      .wrote (some session) (.insertOne r) (.written [.record r]) ∈ m) fl l
      (insertOne session r) := by
  refine walk_then (R := fun m a => ∀ docs, a = .ok (.written docs) →
      .wrote (some session) (.insertOne r) (.written [.record r]) ∈ m)
    (perform_walk h hlast (fun b hb docs hdocs => ?_) nofun) (fun fl m b _ hm => ?_) nofun
  · obtain ⟨s, _, t, -, hwrite, -⟩ := hb
    cases hdocs
    obtain rfl := docs_insertOne hwrite.symm
    exact List.mem_cons_self
  · cases b with
    | written docs => exact pure_walk fun _ => hm docs rfl
    | unmatched => exact throw_walk nofun
    | duplicateKey => exact throw_walk nofun

end Conduct

/-- The calls of a migration: on the documents of other collections, for its own indexes. -/
def Own (indexes : List (String × Index)) : (β : Type) → Op U β → Prop
  | _, .find session _ => session = none
  | _, .change (.write none (.createIndex collection index)) => (collection, index) ∈ indexes
  | _, .change _ => False
  | _, .draw _ => True

/-- A migration that ends well has created all its indexes. -/
def MigrationDefinition.Creates (migration : MigrationDefinition U)
    (indexes : List (String × Index)) : Prop :=
  ∀ (Call ρ : Type) (body : Call → Prog (Op U) ρ) (session : ℕ) (fl : Bool) (l : List Event),
    Conduct body (fun _ => Own indexes)
      (fun m r => r = .ok () → ∀ x ∈ indexes, Created m x) fl l (migration.up session)

/-- A migration with the indexes that it creates. -/
structure Migration (U : Type → Type) extends MigrationDefinition U where
  indexes : List (String × Index)
  creates : toMigrationDefinition.Creates indexes

/-- A runner, or a look at the status or at the indexes; the release says how many migrations
there are in it. -/
inductive Call where
  | up (release : ℕ)
  | status (release : ℕ)
  | findMissing
  deriving DecidableEq

def body (toISOString : Date → String) (migrations : List (Migration U)) :
    Call → Prog (Op U) (Except Failure (List String))
  | .up release =>
    (runPendingMigrations ((migrations.take release).map (·.toMigrationDefinition))).run
  | .status release =>
    (printStatus toISOString ((migrations.take release).map (·.toMigrationDefinition))).run
  | .findMissing => findMissingAuthMigrationIndexes.run

abbrev runners (toISOString : Date → String) (migrations : List (Migration U)) :
    System Call (Op U) (Store Database Document) (Except Failure (List String)) Event :=
  system (schema U) drawFails seen (body toISOString migrations)

section Legal

/-- The caller has read of the version, or has committed its record. -/
def Before (l : List Event) (version : String) : Prop :=
  (∃ records, .saw none (.records records) ∈ l ∧ ∃ r ∈ records, r.version = version) ∨
    ∃ n r, .committed n ∈ l ∧ .wrote (some n) (.insertOne r) (.written [.record r]) ∈ l ∧
      r.version = version

theorem Before.mono {l l' : List Event} {version : String} (h : Before l version) (hl : l ⊆ l') :
    Before l' version := by
  rcases h with ⟨records, hsaw, hr⟩ | ⟨n, r, hcommitted, hwrote, hr⟩
  · exact .inl ⟨records, hl hsaw, hr⟩
  · exact .inr ⟨n, r, hl hcommitted, hl hwrote, hr⟩

/-- The caller knows of all migrations before this one that they are recorded. -/
def Next (migrations : List (Migration U)) (l : List Event) (migration : Migration U) : Prop :=
  ∃ pre post, migrations = pre ++ migration :: post ∧ ∀ p ∈ pre, Before l p.version

/-- What a runner may issue. -/
def Legal (migrations : List (Migration U)) (l : List Event) : (β : Type) → Op U β → Prop
  | _, .find session _ => session = none
  | _, .change (.write none (.createIndex collection index)) =>
    (collection, index) = ("migration_records", recordsIndex) ∨
      ∃ migration, Next migrations l migration ∧ (collection, index) ∈ migration.indexes
  | _, .change (.write none (.insertOne _)) => False
  | _, .change (.write (some _) (.createIndex ..)) => False
  | _, .change (.write (some n) (.insertOne r)) => .began n ∈ l ∧
      ∃ migration, Next migrations l migration ∧ (∃ date, r = migration.record date) ∧
        ∀ x ∈ migration.indexes, Created l x
  | _, .change (.commitTransaction n) => .began n ∈ l
  | _, .change _ => True
  | _, .draw _ => True

variable {migrations : List (Migration U)} {l l' : List Event} {β : Type}

theorem Next.mono {migration : Migration U} (h : Next migrations l migration) (hl : l ⊆ l') :
    Next migrations l' migration := by
  obtain ⟨pre, post, heq, hbefore⟩ := h
  exact ⟨pre, post, heq, fun p hp => (hbefore p hp).mono hl⟩

theorem Legal.disciplined {op : Op U β} (h : Legal migrations l β op) : Disciplined l β op := by
  cases op with
  | find session q =>
    obtain rfl : session = none := h
    exact nofun
  | draw x => trivial
  | change c =>
    cases c with
    | write session w =>
      cases session with
      | none => exact nofun
      | some n =>
        cases w with
        | createIndex => cases h
        | insertOne r =>
          rintro m ⟨⟩
          exact h.1
    | commitTransaction n => exact h
    | startTransaction => trivial
    | abortTransaction n => trivial

end Legal

/-- What a migration may issue a runner may that has come to it. -/
theorem Own.legal {migrations : List (Migration U)} {l : List Event} {migration : Migration U}
    {β : Type} {op : Op U β} (h : Own migration.indexes β op) (hnext : Next migrations l migration) :
    Legal migrations l β op := by
  cases op with
  | find session q => exact h
  | draw x => trivial
  | change c =>
    cases c with
    | write session w =>
      cases session with
      | none =>
        cases w with
        | insertOne r => cases h
        | createIndex collection index => exact .inr ⟨migration, hnext, h⟩
      | some n => cases h
    | startTransaction => cases h
    | commitTransaction n => cases h
    | abortTransaction n => cases h

/-- A program issues its calls on events that go on from those it has started from. -/
theorem onward {Call S ρ Ev α : Type} {Op : Type → Type} {sys : System Call Op S ρ Ev}
    {legal : Bool → List Ev → (β : Type) → Op β → Prop} {post : Bool → List Ev → α → Prop}
    {p : Prog Op α} {fl : Bool} {l l' : List Ev} (hl : l <:+ l')
    (hp : Conforms sys legal post fl l' p) :
    Conforms sys (fun fl m _ op => legal fl m _ op ∧ l <:+ m) post fl l' p := by
  induction p generalizing fl l' with
  | done a => exact hp
  | call op next ih =>
    obtain ⟨hlegal, hr, ht⟩ := hp
    exact ⟨⟨hlegal, hl⟩, fun b hb => ih _ (hl.trans (List.suffix_append _ _)) (hr b hb),
      fun hf r hb => ih _ (hl.trans (List.suffix_append _ _)) (ht hf r hb)⟩

section Walks

variable {toISOString : Date → String} {migrations : List (Migration U)} {fl : Bool}
  {l : List Event}

/-- A walk through a program of a runner. -/
abbrev Walk {α : Type} (toISOString : Date → String) (migrations : List (Migration U))
    (R : List Event → Except Failure α → Prop) (fl : Bool) (l : List Event) (x : Handler U α) :
    Prop :=
  Conduct (body toISOString migrations) (Legal migrations) R fl l x

/-- The map holds records that the caller has read. -/
def Read (l : List Event) (applied : List (String × MigrationRecord)) : Prop :=
  ∃ records, .saw none (.records records) ∈ l ∧
    ∀ version r, getEntry version applied = some r → r ∈ records ∧ r.version = version

theorem Read.mono {applied : List (String × MigrationRecord)} {l' : List Event}
    (h : Read l applied) (hl : l ⊆ l') : Read l' applied := by
  obtain ⟨records, hsaw, hentries⟩ := h
  exact ⟨records, hl hsaw, hentries⟩

theorem Read.before {applied : List (String × MigrationRecord)} (h : Read l applied)
    {version : String} (hv : (getEntry version applied).isNone = false) : Before l version := by
  obtain ⟨records, hsaw, hentries⟩ := h
  obtain ⟨r, hr⟩ := Option.isSome_iff_exists.mp (by simpa using hv)
  exact .inl ⟨records, hsaw, r, hentries version r hr⟩

theorem getEntry_foldl {records : List MigrationRecord}
    {applied : List (String × MigrationRecord)} {version : String} {r : MigrationRecord}
    (h : getEntry version (records.foldl
      (fun applied record => setEntry record.version record applied) applied) = some r) :
    getEntry version applied = some r ∨ r ∈ records ∧ r.version = version := by
  induction records generalizing applied with
  | nil => exact .inl h
  | cons record records ih =>
    rcases ih h with hset | ⟨hr, hv⟩
    · rw [getEntry_setEntry] at hset
      split at hset
      · next heq =>
        cases hset
        exact .inr ⟨List.mem_cons_self, heq⟩
      · exact .inl hset
    · exact .inr ⟨List.mem_cons_of_mem _ hr, hv⟩

theorem getAppliedRecords_walk :
    Walk toISOString migrations (fun m r => ∀ applied, r = .ok applied → Read m applied) fl l
      getAppliedRecords := by
  refine walk_then (createIndex_walk (.inl rfl) fun _ => trivial) (fun fl m _ _ _ => ?_) nofun
  refine walk_then (R := fun m r => ∀ records, r = .ok records → .saw none (.records records) ∈ m)
    (perform_walk rfl (fun _ => trivial) (fun b _ records hrecords => ?_) nofun) (fun fl m records _ hm => ?_) nofun
  · cases hrecords
    exact List.mem_cons_self
  · refine pure_walk fun applied happlied => ⟨records, hm records rfl, fun version r hr => ?_⟩
    cases happlied
    refine (getEntry_foldl hr).resolve_left ?_
    exact nofun

/-- One round: the migration is recorded when it ends well. -/
theorem applyMigration_walk {migration : Migration U} (h : Next migrations l migration) :
    Walk toISOString migrations (fun m r => ∀ line, r = .ok line → Before m migration.version) fl l
      (applyMigration migration.toMigrationDefinition) := by
  refine walk_then (R := fun _ _ => True) (perform_walk trivial (fun _ => trivial) (fun _ _ => trivial) fun _ _ => trivial)
    (fun fl l₁ _ h₁ _ => ?_) nofun
  refine walk_then (R := fun _ _ => True) (perform_walk trivial (fun _ => trivial) (fun _ _ => trivial) fun _ _ => trivial)
    (fun fl l₂ retries h₂ _ => ?_) nofun
  refine walk_then (R := fun m r => ∀ a, r = .ok a → Before m migration.version) ?_
    (fun fl m _ _ hm => pure_walk fun _ _ => hm _ rfl) nofun
  have hnext : Next migrations l₂ migration := h.mono (h₁.trans h₂).subset
  refine withTransaction_conforms (R := fun _ m r => ∀ a, r = .ok a → Before m migration.version)
    (fun _ _ => trivial) (fun _ _ _ => trivial) (fun _ _ => trivial) (fun _ _ _ _ => nofun) ?_
    (List.suffix_refl l₂)
  intro fl l₃ n h₃
  -- the callback of the transaction `n`, which has just begun
  have hbegan : l₂ <:+ .began n :: l₃ := h₃.trans (List.suffix_cons _ _)
  have hup : Walk toISOString migrations (fun m r => r = .ok () → ∀ x ∈ migration.indexes, Created m x)
      fl (.began n :: l₃) (migration.up n) := by
    refine (onward (List.suffix_refl _) (migration.creates _ _ _ n fl _)).weaken fun hop => ?_
    exact hop.1.legal (hnext.mono (hbegan.trans hop.2).subset)
  have hcallback : Walk toISOString migrations (fun m r => ∀ a, r = .ok a →
      .began n ∈ m ∧ Before (.committed n :: m) migration.version) fl (.began n :: l₃) (do
        migration.up n
        let appliedAt ← perform (.draw .now)
        insertOne n (migration.record appliedAt)) := by
    refine walk_then hup (fun fl m₁ _ h₁ hcreated => ?_) nofun
    refine walk_then (R := fun _ _ => True)
      (perform_walk trivial (fun _ => trivial) (fun _ _ => trivial) fun _ _ => trivial) (fun fl m₂ date h₂ _ => ?_) nofun
    have hbegan₂ : Event.began n ∈ m₂ := (h₁.trans h₂).subset List.mem_cons_self
    have hlegal : Legal migrations m₂ _ (.change (.write (some n)
        (.insertOne (migration.record date))) : Op U _) := by
      refine ⟨hbegan₂, migration, hnext.mono (hbegan.trans (h₁.trans h₂)).subset, ⟨date, rfl⟩, ?_⟩
      exact fun x hx => h₂.subset (hcreated rfl x hx)
    refine (insertOne_walk hlegal fun _ => trivial).mono fun _ m r hm => ⟨hm.1, fun a ha => ⟨hm.1.subset hbegan₂, ?_⟩⟩
    exact .inr ⟨n, _, List.mem_cons_self, List.mem_cons_of_mem _ (hm.2 ha), rfl⟩
  exact hcallback.mono fun _ m r hm =>
    ⟨hbegan.trans hm.1, fun a ha => ⟨(hm.2 a ha).1, fun _ _ => (hm.2 a ha).2⟩⟩

/-- The rounds for what is left of a release. -/
theorem rounds_walk {applied : List (String × MigrationRecord)} {pre rest later : List (Migration U)}
    (heq : migrations = pre ++ rest ++ later) (hread : Read l applied)
    (hpre : ∀ p ∈ pre, Before l p.version) :
    Walk toISOString migrations (fun m r => ∀ lines, r = .ok lines → ∀ p ∈ rest, Before m p.version)
      fl l (((rest.map (·.toMigrationDefinition)).filter fun migration =>
        (getEntry migration.version applied).isNone).mapM applyMigration) := by
  induction rest generalizing fl l pre with
  | nil => exact pure_walk fun _ _ _ hp => absurd hp List.not_mem_nil
  | cons migration rest ih =>
    have hsplit : migrations = (pre ++ [migration]) ++ rest ++ later := by simpa using heq
    have hextend : ∀ {m : List Event}, l <:+ m → Before m migration.version →
        ∀ p ∈ pre ++ [migration], Before m p.version := by
      intro m hm hmigration p hp
      rcases List.mem_append.mp hp with hp | hp
      · exact (hpre p hp).mono hm.subset
      · rw [List.mem_singleton.mp hp]
        exact hmigration
    cases hpending : (getEntry migration.version applied).isNone with
    | false =>
      have hmigration := hread.before hpending
      rw [List.map_cons, List.filter_cons, if_neg (ne_true_of_eq_false hpending)]
      refine (ih hsplit hread (hextend (List.suffix_refl l) hmigration)).mono fun _ m r hm => ?_
      refine ⟨hm.1, fun lines hlines p hp => ?_⟩
      rcases List.mem_cons.mp hp with rfl | hp
      · exact hmigration.mono hm.1.subset
      · exact hm.2 lines hlines p hp
    | true =>
      rw [List.map_cons, List.filter_cons, if_pos hpending, List.mapM_cons]
      have hnext : Next migrations l migration := ⟨pre, rest ++ later, by simpa using heq, hpre⟩
      refine walk_then (applyMigration_walk hnext) (fun fl m line hm hline => ?_) nofun
      have hmigration := hline line rfl
      refine walk_then (ih hsplit (hread.mono hm.subset) (hextend hm hmigration))
        (fun fl m' lines hm' hrest => pure_walk fun _ _ p hp => ?_) nofun
      rcases List.mem_cons.mp hp with rfl | hp
      · exact hmigration.mono hm'.subset
      · exact hrest lines rfl p hp

theorem runPendingMigrations_walk (release : ℕ) :
    Walk toISOString migrations (fun m r => ∀ lines, r = .ok lines →
      ∀ p ∈ migrations.take release, Before m p.version) fl l
      (runPendingMigrations ((migrations.take release).map (·.toMigrationDefinition))) := by
  refine walk_then getAppliedRecords_walk (fun fl m applied _ hread => ?_) nofun
  have heq : migrations = [] ++ migrations.take release ++ migrations.drop release := by simp
  have hrounds : Walk toISOString migrations (fun m r => ∀ lines, r = .ok lines →
      ∀ p ∈ migrations.take release, Before m p.version) fl m
      ((((migrations.take release).map (·.toMigrationDefinition)).filter fun migration =>
        (getEntry migration.version applied).isNone).mapM applyMigration) :=
    rounds_walk heq (hread applied rfl) nofun
  refine Conforms.run_ite (fun hempty => ?_) fun _ => hrounds
  -- no round at all: the release has been read of
  rw [List.isEmpty_iff.mp hempty] at hrounds
  exact pure_walk fun _ _ => hrounds.2 [] rfl

/-- The lines of the status are about records that the caller has read. -/
def Tells (toISOString : Date → String) (migrations : List (Migration U)) (release : ℕ)
    (l : List Event) (lines : List String) : Prop :=
  ∃ applied, Read l applied ∧ lines = if (migrations.take release).isEmpty then
    ["No migration files found."] else (migrations.take release).map fun migration =>
      statusLine toISOString applied migration.toMigrationDefinition

theorem printStatus_walk (release : ℕ) :
    Walk toISOString migrations (fun m r => ∀ lines, r = .ok lines →
      Tells toISOString migrations release m lines) fl l
      (printStatus toISOString ((migrations.take release).map (·.toMigrationDefinition))) := by
  refine walk_then getAppliedRecords_walk (fun fl m applied _ hread => ?_) nofun
  refine Conforms.run_ite (fun hempty => pure_walk fun lines hlines => ?_) fun hempty =>
    pure_walk fun lines hlines => ?_
  · cases hlines
    rw [List.isEmpty_map] at hempty
    exact ⟨applied, hread applied rfl, (if_pos hempty).symm⟩
  · cases hlines
    rw [List.isEmpty_map] at hempty
    exact ⟨applied, hread applied rfl, by rw [if_neg hempty, List.map_map]; rfl⟩

/-- The caller has been shown an index of that name. -/
def Listed (l : List Event) (collectionName requiredName : String) : Prop :=
  ∃ indexes, .saw none (.indexes collectionName indexes) ∈ l ∧
    ∃ index ∈ indexes, index.name = requiredName

theorem Listed.mono {l' : List Event} {collectionName requiredName : String}
    (h : Listed l collectionName requiredName) (hl : l ⊆ l') :
    Listed l' collectionName requiredName := by
  obtain ⟨indexes, hsaw, hindex⟩ := h
  exact ⟨indexes, hl hsaw, hindex⟩

theorem findIndexNames_walk {collectionName : String} :
    Walk toISOString migrations (fun m r => ∀ names, r = .ok names →
      ∀ name ∈ names, Listed m collectionName name) fl l (findIndexNames collectionName) := by
  refine Conforms.run_handle (R := fun _ m r => l <:+ m ∧ ∀ names, r = .ok names →
    ∀ name ∈ names, Listed m collectionName name) ?_ (fun _ _ _ h => h) fun _ m _ h => ?_
  · refine walk_then (R := fun m r => ∀ indexes, r = .ok indexes →
      .saw none (.indexes collectionName indexes) ∈ m)
      (perform_walk rfl (fun _ => trivial) (fun b _ indexes hindexes => ?_) nofun) (fun fl m indexes _ hm => ?_) nofun
    · cases hindexes
      exact List.mem_cons_self
    · refine pure_walk fun names hnames name hname => ⟨indexes, hm indexes rfl, ?_⟩
      cases hnames
      exact List.mem_map.mp (List.mem_of_mem_filter hname)
  · refine Conforms.run_pure ⟨h.1, fun names hnames name hname => ?_⟩
    cases hnames
    cases hname

theorem findMissing_walk {required : List (String × List String)} :
    Walk toISOString migrations (fun m r => ∀ missing, r = .ok missing →
      ∀ x ∈ required, ∀ name ∈ x.2, Listed m x.1 name ∨ x.1 ++ "." ++ name ∈ missing.flatten) fl l
      (required.mapM fun x => findMissingOf x.1 x.2) := by
  induction required generalizing fl l with
  | nil => exact pure_walk fun _ _ _ hx => absurd hx List.not_mem_nil
  | cons required rest ih =>
    rw [List.mapM_cons]
    refine walk_then (R := fun m r => ∀ missing, r = .ok missing → ∀ name ∈ required.2,
      Listed m required.1 name ∨ required.1 ++ "." ++ name ∈ missing) ?_
      (fun fl m missing hm hmissing => ?_) nofun
    · refine walk_then findIndexNames_walk (fun fl m names _ hnames => pure_walk ?_) nofun
      rintro _ ⟨⟩ name hname
      by_cases hmem : name ∈ names
      · exact .inl (hnames names rfl name hmem)
      · exact .inr (List.mem_map_of_mem (List.mem_filter.mpr ⟨hname, decide_eq_true hmem⟩))
    · refine walk_then ih (fun fl m' others hm' hothers => pure_walk ?_) nofun
      rintro _ ⟨⟩ x hx name hname
      rw [List.flatten_cons, List.mem_append]
      rcases List.mem_cons.mp hx with rfl | hx
      · exact (hmissing missing rfl name hname).imp (·.mono hm'.subset) .inl
      · exact (hothers others rfl x hx name hname).imp_right .inr

/-- What a call has reached when it ends well. -/
def Reached (toISOString : Date → String) (migrations : List (Migration U)) (l : List Event)
    (lines : List String) : Call → Prop
  | .up release => ∀ p ∈ migrations.take release, Before l p.version
  | .status release => Tells toISOString migrations release l lines
  | .findMissing => ∀ x ∈ AUTH_MIGRATION_REQUIRED_INDEXES, ∀ name ∈ x.2,
    Listed l x.1 name ∨ x.1 ++ "." ++ name ∈ lines

theorem body_walk (call : Call) :
    Walk toISOString migrations
      (fun m r => ∀ lines, r = .ok lines → Reached toISOString migrations m lines call) fl l
      (ExceptT.mk (body toISOString migrations call)) := by
  cases call with
  | up release => exact runPendingMigrations_walk release
  | status release => exact printStatus_walk release
  | findMissing =>
    refine walk_then findMissing_walk (fun fl m missing _ hmissing => pure_walk ?_) nofun
    rintro _ ⟨⟩
    exact hmissing missing rfl

end Walks

end Migrate
