import BookLibrary.Quality.DiffExactness
import BookLibrary.Quality.Lcov
import Mathlib.Data.Finset.Card
import Mathlib.Data.Rat.Floor

/-!
# The coverage of changed lines

The gate reads a diff and a coverage trace, and counts the added lines of the sources in its scope
that the trace has hits for. A source that the trace does not have fails it.
-/

namespace Quality

open Documents Text

section Gate

def endsWith (mark : String) (text : Text) : Bool :=
  mark.toList.isSuffixOf text

/-- A dot of a pattern stands for any character but these. -/
def isLineTerminator (c : Char) : Bool :=
  c ∈ ['\n', '\r', '\u2028', '\u2029']

/-- `^src\/.*\.ts$`, for a root and some endings. -/
def isUnder (root : String) (endings : List String) (path : Text) : Bool :=
  startsWith root path && !path.any isLineTerminator &&
    endings.any fun ending => endsWith ending (path.drop root.length)

/-- `^frontend\/src\/(?:.*\/)?__generated__\/`, on a path of one line. -/
def isGenerated (path : Text) : Bool :=
  startsWith "frontend/src/__generated__/" path ||
    startsWith "frontend/src/" path &&
      (path.drop 13).tails.any fun rest => startsWith "/__generated__/" rest

/-- What `filterChangedLines` keeps. -/
def inScope (scope : ChangedLineCoverageScope) (path : Text) : Bool :=
  match scope with
  | .backend =>
    isUnder "src/" [".ts"] path && !([".spec.ts", ".test.ts"].any (endsWith · path)) &&
      !endsWith ".d.ts" path && path != "src/books/interfaces/book.interface.ts".toList
  | .frontend =>
    isUnder "frontend/src/" [".ts", ".tsx"] path &&
      !([".spec.ts", ".spec.tsx", ".test.ts", ".test.tsx"].any (endsWith · path)) &&
      !startsWith "frontend/src/test/" path && !isGenerated path && !endsWith ".d.ts" path &&
      path != "frontend/src/main.tsx".toList

def filterChangedLines (changed : Changed) (scope : ChangedLineCoverageScope) : Changed :=
  changed.filter fun entry => inScope scope entry.1

inductive ChangedLineCoverageStatus where
  | passed | failed | notApplicable
  deriving DecidableEq

structure ChangedCoverageGate where
  status : ChangedLineCoverageStatus
  passed : Bool
  pct : ℚ
  covered : ℕ
  total : ℕ
  missingFiles : List Text
  minimum : ℚ

/-- The counters of the loop. -/
structure CoverageTally where
  covered : ℕ
  total : ℕ
  missingFiles : List Text

def CoverageTally.visitLine (lineHits : List (ℕ × ℕ)) (tally : CoverageTally) (line : ℕ) :
    CoverageTally :=
  match getEntry line lineHits with
  | none => tally
  | some hits =>
    { tally with
      total := tally.total + 1
      covered := if 0 < hits then tally.covered + 1 else tally.covered }

def CoverageTally.visit (lcov : Lcov) (tally : CoverageTally) (entry : Text × List ℕ) :
    CoverageTally :=
  match getEntry entry.1 lcov with
  | none =>
    { tally with
      missingFiles := tally.missingFiles ++ [entry.1]
      total := tally.total + entry.2.length }
  | some lineHits => entry.2.foldl (CoverageTally.visitLine lineHits) tally

/-- `Math.floor((covered / total) * 10000) / 100`, where every result is rounded. -/
def coveragePct (round : ℚ → ℚ) (covered total : ℕ) : ℚ :=
  if total = 0 then 100
  else round ((⌊round (round ((covered : ℚ) / total) * 10000)⌋ : ℚ) / 100)

def evaluateChangedLineCoverage (round : ℚ → ℚ) (changed : Changed) (lcov : Lcov) (minimum : ℚ) :
    Except String ChangedCoverageGate :=
  if minimum < 0 ∨ 100 < minimum then .error "invalid-changed-line-minimum"
  else if changed = [] then
    .ok ⟨.notApplicable, true, 100, 0, 0, [], minimum⟩
  else
    let tally := changed.foldl (CoverageTally.visit lcov) ⟨0, 0, []⟩
    let pct := coveragePct round tally.covered tally.total
    let passed := decide (minimum ≤ pct) && tally.missingFiles.isEmpty
    .ok ⟨if passed then .passed else .failed, passed, pct, tally.covered, tally.total,
      tally.missingFiles, minimum⟩

/-- The gate on the texts of a diff and a trace. -/
def changedLineCoverage (round : ℚ → ℚ) (scope : ChangedLineCoverageScope) (diff lcov : Text)
    (minimum : ℚ) : Except String ChangedCoverageGate := do
  let changed ← parseChangedLines diff
  evaluateChangedLineCoverage round (filterChangedLines changed scope) (parseLcov lcov scope) minimum

end Gate

/-! ## Maps of changed lines -/

section Changed

variable {changed : Changed} {pairs : List (Text × ℕ)}

/-- A path stands in the map once, and a line under it once. -/
structure Changed.Neat (changed : Changed) : Prop where
  paths : (changed.map Prod.fst).Nodup
  lines : ∀ entry ∈ changed, entry.2.Nodup

theorem Changed.mem_paths_add {path path' : Text} {line : ℕ} :
    path' ∈ (changed.add path line).map Prod.fst ↔ path' = path ∨ path' ∈ changed.map Prod.fst := by
  induction changed with
  | nil => simp [Changed.add]
  | cons entry rest ih =>
    obtain ⟨known, lines⟩ := entry
    rw [Changed.add]
    by_cases h : path = known
    · subst h
      simp
    · rw [if_neg h, List.map_cons, List.mem_cons, ih, List.map_cons, List.mem_cons]
      tauto

theorem Changed.Neat.add (h : changed.Neat) (path : Text) (line : ℕ) :
    (changed.add path line).Neat := by
  induction changed with
  | nil => exact ⟨List.nodup_singleton _, by simp [Changed.add]⟩
  | cons entry rest ih =>
    obtain ⟨known, lines⟩ := entry
    have hlines : lines.Nodup := h.lines _ List.mem_cons_self
    have hrest : Changed.Neat rest :=
      ⟨(List.nodup_cons.mp h.paths).2, fun e he => h.lines e (List.mem_cons_of_mem _ he)⟩
    rw [Changed.add]
    by_cases hpath : path = known
    · rw [if_pos hpath]
      refine ⟨h.paths, List.forall_mem_cons.mpr ⟨?_, hrest.lines⟩⟩
      by_cases hline : line ∈ lines
      · simpa [hline] using hlines
      · simpa [hline] using hlines.append (List.nodup_singleton line) (by simpa using hline)
    · rw [if_neg hpath]
      refine ⟨List.nodup_cons.mpr ⟨?_, (ih hrest).paths⟩,
        List.forall_mem_cons.mpr ⟨hlines, (ih hrest).lines⟩⟩
      rw [Changed.mem_paths_add, not_or]
      exact ⟨Ne.symm hpath, (List.nodup_cons.mp h.paths).1⟩

theorem Reader.readHunkLine_changed (reader : Reader) (next : ℕ) (line : Text) :
    (reader.readHunkLine next line).changed = reader.changed ∨
      ∃ path, (reader.readHunkLine next line).changed = reader.changed.add path next := by
  rw [Reader.readHunkLine]
  cases reader.path with
  | none => exact .inl rfl
  | some path =>
    cases path with
    | nil => exact .inl rfl
    | cons c rest =>
      simp only
      by_cases hplus : startsWith "+" line = true
      · rw [if_pos hplus]
        exact .inr ⟨_, rfl⟩
      · rw [if_neg hplus]
        by_cases hminus : startsWith "-" line = true
        · rw [if_pos hminus]
          exact .inl rfl
        · rw [if_neg hminus]
          exact .inl rfl

/-- A line adds at most one line to the map. -/
theorem Reader.read_changed {reader reader' : Reader} {line : Text}
    (h : reader.read line = .ok reader') :
    reader'.changed = reader.changed ∨
      ∃ path next, reader'.changed = reader.changed.add path next := by
  rw [Reader.read] at h
  by_cases hdiff : startsWith "diff --git " line = true
  · rw [if_pos hdiff] at h
    exact .inl (by rw [← Except.ok.inj h])
  rw [if_neg hdiff] at h
  cases hhunk : hunkStart line with
  | some start =>
    rw [hhunk] at h
    exact .inl (by rw [← Except.ok.inj h])
  | none =>
    rw [hhunk] at h
    cases hnext : reader.nextAddedLine with
    | some next =>
      rw [hnext] at h
      obtain rfl := Except.ok.inj h
      exact (reader.readHunkLine_changed next line).imp_right fun hadd => hadd.imp fun _ heq =>
        ⟨next, heq⟩
    | none =>
      -- The names of the files change no lines.
      refine .inl ?_
      simp only [hnext] at h
      by_cases hold : startsWith "--- " line = true
      · rw [if_pos hold] at h
        rw [← Except.ok.inj h]
      rw [if_neg hold] at h
      by_cases hnew : (reader.awaitingNewFilePath && startsWith "+++ " line) = true
      · rw [if_pos hnew] at h
        by_cases hnull : line.drop 4 = "/dev/null".toList
        · rw [if_pos hnull] at h
          rw [← Except.ok.inj h]
        · rw [if_neg hnull] at h
          cases hpath : normalizeGitPath (line.drop 4) with
          | error message =>
            rw [hpath] at h
            cases h
          | ok path =>
            rw [hpath] at h
            rw [← Except.ok.inj h]
      · rw [if_neg hnew] at h
        rw [← Except.ok.inj h]

theorem Reader.read_neat {reader reader' : Reader} {line : Text} (h : reader.changed.Neat)
    (hread : reader.read line = .ok reader') : reader'.changed.Neat := by
  obtain heq | ⟨path, next, heq⟩ := Reader.read_changed hread
  · rw [heq]
    exact h
  · rw [heq]
    exact h.add path next

theorem Reader.readAll_neat {lines : List Text} {reader reader' : Reader}
    (h : reader.changed.Neat) (hread : reader.readAll lines = .ok reader') :
    reader'.changed.Neat := by
  induction lines generalizing reader with
  | nil =>
    obtain rfl := Except.ok.inj hread
    exact h
  | cons line lines ih =>
    cases hline : reader.read line with
    | error message =>
      rw [Reader.readAll, List.foldlM_cons, hline] at hread
      cases hread
    | ok next =>
      rw [Reader.readAll_cons _ hline] at hread
      exact ih (Reader.read_neat h hline) hread

theorem parseChangedLines_neat {diff : Text} (h : parseChangedLines diff = .ok changed) :
    changed.Neat := by
  have hempty : Changed.Neat [] := ⟨List.nodup_nil, fun _ he => absurd he List.not_mem_nil⟩
  rw [parseChangedLines] at h
  cases hread : (splitLines diff).foldlM Reader.read ⟨[], none, none, false⟩ with
  | error message =>
    rw [hread] at h
    cases h
  | ok reader =>
    rw [hread] at h
    obtain rfl := Except.ok.inj h
    have hstart : (⟨[], none, none, false⟩ : Reader).changed.Neat := hempty
    exact Reader.readAll_neat hstart hread

/-- The lines with their paths. -/
def Changed.expand (changed : Changed) : List (Text × ℕ) :=
  changed.flatMap fun entry => entry.2.map fun line => (entry.1, line)

theorem Changed.expand_cons (entry : Text × List ℕ) (changed : Changed) :
    Changed.expand (entry :: changed) =
      (entry.2.map fun line => (entry.1, line)) ++ Changed.expand changed :=
  List.flatMap_cons

theorem Changed.Neat.nodup_expand (h : changed.Neat) : changed.expand.Nodup := by
  refine List.nodup_flatMap.mpr ⟨fun entry hentry => ?_, ?_⟩
  · exact (h.lines entry hentry).map fun _ _ heq => (Prod.mk.inj heq).2
  · refine (List.pairwise_map.mp h.paths).imp fun {entry entry'} hne => ?_
    intro pair hpair hpair'
    obtain ⟨line, -, rfl⟩ := List.mem_map.mp hpair
    obtain ⟨line', -, heq⟩ := List.mem_map.mp hpair'
    exact hne (congrArg Prod.fst heq).symm

theorem Changed.Neat.lookup_eq_some_iff (h : changed.Neat) {path : Text} {lines : List ℕ} :
    changed.lookup path = some lines ↔ (path, lines) ∈ changed := by
  have hpaths := h.paths
  clear h
  induction changed with
  | nil => simp
  | cons entry rest ih =>
    obtain ⟨known, lines'⟩ := entry
    rw [List.map_cons, List.nodup_cons] at hpaths
    rw [List.lookup_cons, List.mem_cons, Prod.mk.injEq]
    by_cases heq : path = known
    · subst heq
      have hnot : (path, lines) ∉ rest := fun hmem => hpaths.1 (List.mem_map.mpr ⟨_, hmem, rfl⟩)
      simp [hnot, eq_comm]
    · rw [beq_false_of_ne heq]
      simpa [heq] using ih hpaths.2

/-- A neat map that holds the pairs has them, each once. -/
theorem Changed.Holds.mem_expand (hholds : changed.Holds pairs) (h : changed.Neat)
    {pair : Text × ℕ} : pair ∈ changed.expand ↔ pair ∈ pairs := by
  obtain ⟨path, line⟩ := pair
  have hunder : line ∈ (linesUnder pairs path).getD ∅ ↔ (path, line) ∈ pairs := mem_linesUnder
  rw [← hunder, ← hholds path, Changed.expand, List.mem_flatMap]
  constructor
  · rintro ⟨⟨known, lines⟩, hentry, hmem⟩
    obtain ⟨line', hline, heq⟩ := List.mem_map.mp hmem
    obtain ⟨rfl, rfl⟩ := Prod.mk.inj heq
    rw [h.lookup_eq_some_iff.mpr hentry]
    simpa using hline
  · intro hmem
    cases hlookup : changed.lookup path with
    | none => simp [hlookup] at hmem
    | some lines =>
      refine ⟨(path, lines), h.lookup_eq_some_iff.mp hlookup, List.mem_map.mpr ⟨line, ?_, rfl⟩⟩
      simpa [hlookup] using hmem

/-- No path of the map is without lines. -/
theorem Changed.Holds.exists_line (hholds : changed.Holds pairs) (h : changed.Neat)
    {entry : Text × List ℕ} (hentry : entry ∈ changed) : ∃ line, (entry.1, line) ∈ pairs := by
  have hlookup := h.lookup_eq_some_iff.mpr hentry
  have hunder := hholds entry.1
  rw [hlookup, Option.map_some] at hunder
  by_contra hnone
  push Not at hnone
  rw [linesUnder_eq_none.mpr hnone] at hunder
  cases hunder

end Changed

/-! ## Counting -/

section Counting

variable {lcov : Lcov} {changed : Changed}

/-- A line that the loop counts: the trace has hits for it, or not even its source. -/
def Lcov.counts (lcov : Lcov) (pair : Text × ℕ) : Bool :=
  match getEntry pair.1 lcov with
  | none => true
  | some lineHits => (getEntry pair.2 lineHits).isSome

def Lcov.covers (lcov : Lcov) (pair : Text × ℕ) : Bool :=
  ((getEntry pair.1 lcov).bind (getEntry pair.2)).any fun hits => decide (0 < hits)

theorem visitLine_foldl (lineHits : List (ℕ × ℕ)) (lines : List ℕ) (tally : CoverageTally) :
    lines.foldl (CoverageTally.visitLine lineHits) tally =
      ⟨tally.covered + lines.countP fun line => (getEntry line lineHits).any fun hits =>
          decide (0 < hits),
        tally.total + lines.countP fun line => (getEntry line lineHits).isSome,
        tally.missingFiles⟩ := by
  induction lines generalizing tally with
  | nil => rfl
  | cons line lines ih =>
    rw [List.foldl_cons, ih, CoverageTally.visitLine, List.countP_cons, List.countP_cons]
    cases getEntry line lineHits with
    | none => simp
    | some hits =>
      by_cases hpos : 0 < hits
      · simp [hpos, Nat.add_assoc, Nat.add_comm]
      · simp [hpos, Nat.add_assoc, Nat.add_comm]

theorem visit_eq (tally : CoverageTally) (entry : Text × List ℕ) :
    tally.visit lcov entry =
      ⟨tally.covered + (entry.2.map fun line => (entry.1, line)).countP lcov.covers,
        tally.total + (entry.2.map fun line => (entry.1, line)).countP lcov.counts,
        tally.missingFiles ++ if (getEntry entry.1 lcov).isNone then [entry.1] else []⟩ := by
  rw [CoverageTally.visit, List.countP_map, List.countP_map]
  cases h : getEntry entry.1 lcov with
  | none => simp [Function.comp_def, Lcov.covers, Lcov.counts, h]
  | some lineHits => simp [visitLine_foldl, Function.comp_def, Lcov.covers, Lcov.counts, h]

/-- The loop counts the lines of the map, and lists the paths that the trace does not have. -/
theorem visit_foldl (changed : Changed) (tally : CoverageTally) :
    changed.foldl (CoverageTally.visit lcov) tally =
      ⟨tally.covered + changed.expand.countP lcov.covers,
        tally.total + changed.expand.countP lcov.counts,
        tally.missingFiles ++
          (changed.map Prod.fst).filter fun path => (getEntry path lcov).isNone⟩ := by
  induction changed generalizing tally with
  | nil => simp [Changed.expand]
  | cons entry changed ih =>
    rw [List.foldl_cons, visit_eq, ih, Changed.expand_cons, List.countP_append,
      List.countP_append, List.map_cons, List.filter_cons]
    by_cases h : (getEntry entry.1 lcov).isNone = true
    · simp [h, Nat.add_assoc]
    · simp [h, Nat.add_assoc]

theorem Changed.Neat.filter (h : changed.Neat) (p : Text × List ℕ → Bool) :
    Changed.Neat (changed.filter p) :=
  ⟨h.paths.sublist (List.filter_sublist.map _), fun entry hentry =>
    h.lines entry (List.mem_of_mem_filter hentry)⟩

theorem expand_filterChangedLines (changed : Changed) (scope : ChangedLineCoverageScope) :
    (filterChangedLines changed scope).expand =
      changed.expand.filter fun pair => inScope scope pair.1 := by
  induction changed with
  | nil => rfl
  | cons entry changed ih =>
    rw [Changed.expand_cons, List.filter_append, ← ih, filterChangedLines, List.filter_cons]
    by_cases h : inScope scope entry.1 = true
    · rw [if_pos h]
      have hall : (entry.2.map fun line => (entry.1, line)).filter
          (fun pair => inScope scope pair.1) = entry.2.map fun line => (entry.1, line) := by
        refine List.filter_eq_self.mpr fun pair hpair => ?_
        obtain ⟨line, -, rfl⟩ := List.mem_map.mp hpair
        exact h
      rw [hall]
      exact Changed.expand_cons _ _
    · rw [if_neg h]
      have hnone : (entry.2.map fun line => (entry.1, line)).filter
          (fun pair => inScope scope pair.1) = [] := by
        refine List.filter_eq_nil_iff.mpr fun pair hpair => ?_
        obtain ⟨line, -, rfl⟩ := List.mem_map.mp hpair
        exact h
      rw [hnone, List.nil_append]
      rfl

/-- Lines that stand in a list once are counted as a set. -/
theorem countP_eq_card {pairs : List (Text × ℕ)} {set : Finset (Text × ℕ)} (hnodup : pairs.Nodup)
    (hmem : ∀ pair, pair ∈ pairs ↔ pair ∈ set) {p : Text × ℕ → Bool} :
    pairs.countP p = (set.filter fun pair => p pair = true).card := by
  have hset : set = pairs.toFinset := Finset.ext fun pair => by rw [List.mem_toFinset, hmem]
  rw [hset, ← List.toFinset_filter, List.toFinset_card_of_nodup (hnodup.filter _),
    List.countP_eq_length_filter]

end Counting

/-! ## The gate on rendered texts -/

section Rendered

variable {diff : Diff} {trace : LcovTrace} {scope : ChangedLineCoverageScope}

/-- The added lines of the diff in files of the scope. -/
def Diff.addedIn (diff : Diff) (scope : ChangedLineCoverageScope) : Finset (Text × ℕ) :=
  (diff.addedLines Path.repositoryPath).toFinset.filter fun pair => inScope scope pair.1 = true

/-- The trace has a record of the source. -/
def LcovTrace.Has (trace : LcovTrace) (scope : ChangedLineCoverageScope) (path : Text) : Prop :=
  path ∈ trace.records.map (·.path scope)

instance (path : Text) : Decidable (trace.Has scope path) := by
  unfold LcovTrace.Has
  infer_instance

/-- The last hits that the trace gives for the line. -/
def LcovTrace.hitsOf (trace : LcovTrace) (scope : ChangedLineCoverageScope) (pair : Text × ℕ) :
    Option ℕ :=
  lastHits (trace.hits scope) pair.1 pair.2

theorem Diff.path_ne_nil {pair : Text × ℕ} (h : pair ∈ diff.addedIn scope) : pair.1 ≠ [] := by
  rw [Diff.addedIn, Finset.mem_filter, List.mem_toFinset] at h
  obtain ⟨name, line⟩ := pair
  obtain ⟨file, -, path, -, hname, -⟩ := Diff.mem_addedLines.mp h.1
  rw [← hname, Path.repositoryPath, ne_eq, List.map_eq_nil_iff]
  exact path.nonempty

theorem getEntry_parseLcov {path : Text} :
    (getEntry path (parseLcov trace.render scope)).isNone = true ↔ ¬ trace.Has scope path := by
  rw [Option.isNone_iff_eq_none, ← Option.not_isSome_iff_eq_none,
    (parseLcov_render trace scope).known, LcovTrace.Has]

theorem counts_iff {pair : Text × ℕ} (hne : pair.1 ≠ []) :
    (parseLcov trace.render scope).counts pair = true ↔
      (trace.Has scope pair.1 → (trace.hitsOf scope pair).isSome = true) := by
  have hcounts := (parseLcov_render trace scope).counts pair.1 hne pair.2
  have hknown := (parseLcov_render trace scope).known pair.1
  rw [Lcov.counts, LcovTrace.hitsOf, ← hcounts, LcovTrace.Has, ← hknown]
  cases getEntry pair.1 (parseLcov trace.render scope) with
  | none => simp
  | some lineHits => simp

theorem covers_iff {pair : Text × ℕ} (hne : pair.1 ≠ []) :
    (parseLcov trace.render scope).covers pair = true ↔
      ∃ hits, trace.hitsOf scope pair = some hits ∧ 0 < hits := by
  rw [Lcov.covers, (parseLcov_render trace scope).counts pair.1 hne pair.2, LcovTrace.hitsOf,
    Option.any_eq_true]
  simp

end Rendered

/-- A source with two added lines, of which the tests reach the first. -/
def halfDiff : Diff :=
  ⟨true, [oneHunk "src/a.ts".toList (by decide)
    [⟨.added, ['p'], false, by decide⟩, ⟨.added, ['q'], false, by decide⟩]], by decide⟩

def halfTrace : LcovTrace :=
  ⟨[⟨"/app/src/a.ts".toList, [.data 1 3 none, .data 2 0 none], by decide, by
    simp [LcovEntry.WellFormed]⟩]⟩

end Quality
