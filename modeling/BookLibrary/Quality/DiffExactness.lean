import BookLibrary.Quality.DiffReading

/-!
# When the changed lines are exact

Two kinds of files are not read as they are written: the tab after an unquoted path stays in
the path, and a line about a missing line feed moves the numbers of the added lines after it.
A backslash in a path is read as a slash, as the repository names its files.
-/

namespace Quality

open Text

/-! ## Numbers -/

/-- A line about a missing line feed has an added line after it. -/
def Misnumbered : List HunkLine → Prop
  | [] => False
  | line :: rest =>
    (line.noNewline = true ∧ ∃ later ∈ rest, later.kind = .added) ∨ Misnumbered rest

theorem le_of_mem_addedFrom {number line : ℕ} {lines : List HunkLine}
    (h : line ∈ addedFrom number lines) : number ≤ line := by
  induction lines generalizing number with
  | nil => cases h
  | cons head rest ih =>
    rw [addedFrom] at h
    cases hkind : head.kind with
    | context =>
      rw [hkind] at h
      exact Nat.le_of_succ_le (ih h)
    | added =>
      rw [hkind] at h
      rcases List.mem_cons.mp h with rfl | h
      · exact Nat.le_refl _
      · exact Nat.le_of_succ_le (ih h)
    | removed =>
      rw [hkind] at h
      exact ih h

theorem lt_of_mem_addedFrom {number line : ℕ} {lines : List HunkLine}
    (h : line ∈ addedFrom number lines) :
    line < number + lines.countP fun line => line.kind ≠ .removed := by
  induction lines generalizing number with
  | nil => cases h
  | cons head rest ih =>
    rw [addedFrom] at h
    rw [List.countP_cons]
    cases hkind : head.kind with
    | context =>
      rw [hkind] at h
      have hlt := ih h
      rw [if_pos (by decide)]
      omega
    | added =>
      rw [hkind] at h
      rw [if_pos (by decide)]
      rcases List.mem_cons.mp h with rfl | h
      · omega
      · have hlt := ih h
        omega
    | removed =>
      rw [hkind] at h
      exact Nat.lt_of_lt_of_le (ih h) (by simp)

theorem le_of_mem_countedFrom {number line : ℕ} {lines : List HunkLine}
    (h : line ∈ countedFrom number lines) : number ≤ line := by
  induction lines generalizing number with
  | nil => cases h
  | cons head rest ih =>
    rw [countedFrom] at h
    cases hkind : head.kind with
    | context | removed =>
      rw [hkind] at h
      have hle := ih h
      omega
    | added =>
      rw [hkind] at h
      rcases List.mem_cons.mp h with rfl | h
      · exact Nat.le_refl _
      · have hle := ih h
        omega

/-- Something is counted exactly if something is added. -/
theorem countedFrom_eq_nil_iff {number number' : ℕ} {lines : List HunkLine} :
    countedFrom number lines = [] ↔ addedFrom number' lines = [] := by
  induction lines generalizing number number' with
  | nil => exact ⟨fun _ => rfl, fun _ => rfl⟩
  | cons head rest ih =>
    rw [countedFrom, addedFrom]
    cases head.kind with
    | context | removed => exact ih
    | added => exact ⟨fun h => (List.cons_ne_nil _ _ h).elim, fun h => (List.cons_ne_nil _ _ h).elim⟩

theorem addedFrom_eq_nil_iff {number : ℕ} {lines : List HunkLine} :
    addedFrom number lines = [] ↔ ∀ line ∈ lines, line.kind ≠ .added := by
  induction lines generalizing number with
  | nil => simp [addedFrom]
  | cons head rest ih =>
    rw [addedFrom, List.forall_mem_cons]
    cases head.kind with
    | context | removed => simp [ih]
    | added => simp

theorem countedFrom_eq_addedFrom {number : ℕ} {lines : List HunkLine} (h : ¬ Misnumbered lines) :
    countedFrom number lines = addedFrom number lines := by
  induction lines generalizing number with
  | nil => rfl
  | cons head rest ih =>
    rw [Misnumbered, not_or] at h
    have hrest (number : ℕ) : countedFrom (number + if head.noNewline then 1 else 0) rest =
        addedFrom number rest := by
      cases hmark : head.noNewline with
      | false => exact ih h.2
      | true =>
        -- after the mark nothing is added, so nothing is counted
        have hnone : addedFrom number rest = [] := addedFrom_eq_nil_iff.mpr fun line hline hkind =>
          h.1 ⟨hmark, line, hline, hkind⟩
        rw [hnone, countedFrom_eq_nil_iff.mpr hnone]
    rw [countedFrom, addedFrom]
    cases head.kind with
    | context | removed => exact hrest _
    | added => exact congrArg _ (hrest _)

/-- From a number too high on, the first added line is missed. -/
theorem lt_of_mem_countedFrom {number number' first line : ℕ} {lines : List HunkLine}
    {more : List ℕ} (hadded : addedFrom number lines = first :: more) (hlt : number < number')
    (h : line ∈ countedFrom number' lines) : first < line := by
  induction lines generalizing number number' with
  | nil => cases h
  | cons head rest ih =>
    rw [addedFrom] at hadded
    rw [countedFrom] at h
    cases hkind : head.kind with
    | context | removed =>
      rw [hkind] at hadded h
      exact ih hadded (by omega) h
    | added =>
      rw [hkind] at hadded h
      obtain ⟨rfl, -⟩ := List.cons.inj hadded
      rcases List.mem_cons.mp h with rfl | h
      · exact hlt
      · have hle := le_of_mem_countedFrom h
        omega

/-- A hunk with a line after the mark misses one of its numbers. -/
theorem exists_missed (number : ℕ) {lines : List HunkLine} (h : Misnumbered lines) :
    ∃ line ∈ addedFrom number lines, line ∉ countedFrom number lines := by
  induction lines generalizing number with
  | nil => exact h.elim
  | cons head rest ih =>
    have hrest (number : ℕ) : ∃ line ∈ addedFrom number rest,
        line ∉ countedFrom (number + if head.noNewline then 1 else 0) rest := by
      cases hmark : head.noNewline with
      | false =>
        rw [Misnumbered, hmark] at h
        exact ih number (h.resolve_left fun hleft => by cases hleft.1)
      | true =>
        by_cases hadded : addedFrom number rest = []
        · rw [addedFrom_eq_nil_iff] at hadded
          rcases h with ⟨-, later, hlater, hkind⟩ | h
          · exact absurd hkind (hadded later hlater)
          · obtain ⟨line, hline, -⟩ := ih number h
            rw [addedFrom_eq_nil_iff.mpr hadded] at hline
            cases hline
        · obtain ⟨first, more, hfirst⟩ := List.exists_cons_of_ne_nil hadded
          refine ⟨first, hfirst ▸ List.mem_cons_self, fun hmem => ?_⟩
          exact absurd (lt_of_mem_countedFrom hfirst (Nat.lt_succ_self number) hmem)
            (Nat.lt_irrefl _)
    rw [countedFrom, addedFrom]
    cases head.kind with
    | context | removed => exact hrest _
    | added =>
      obtain ⟨line, hline, hmissed⟩ := hrest (number + 1)
      have hle := le_of_mem_addedFrom hline
      refine ⟨line, List.mem_cons_of_mem _ hline, ?_⟩
      rw [List.mem_cons, not_or]
      exact ⟨by omega, hmissed⟩

/-! ## Files -/

theorem mem_addedLines_bounds {hunk : Hunk} {line : ℕ}
    (h : line ∈ addedFrom hunk.newStart hunk.lines) :
    hunk.newStart ≤ line ∧ line < hunk.newStart + hunk.newCount :=
  ⟨le_of_mem_addedFrom h, lt_of_mem_addedFrom h⟩

/-- A file with a hunk that misses a number misses it as a whole. -/
theorem exists_missed_of_hunks {hunks : List Hunk}
    (hascending : hunks.Pairwise fun hunk later => hunk.newStart + hunk.newCount ≤ later.newStart)
    (h : ∃ hunk ∈ hunks, Misnumbered hunk.lines) :
    ∃ line ∈ hunks.flatMap (fun hunk => addedFrom hunk.newStart hunk.lines),
      line ∉ hunks.flatMap fun hunk => countedFrom hunk.newStart hunk.lines := by
  induction hunks with
  | nil => exact absurd h (by simp)
  | cons hunk hunks ih =>
    obtain ⟨hlater, hrest⟩ := List.pairwise_cons.mp hascending
    simp only [List.flatMap_cons, List.mem_append, not_or]
    by_cases hmis : Misnumbered hunk.lines
    · obtain ⟨line, hline, hmissed⟩ := exists_missed hunk.newStart hmis
      refine ⟨line, .inl hline, hmissed, fun hmem => ?_⟩
      obtain ⟨later, hmemLater, hcounted⟩ := List.mem_flatMap.mp hmem
      have hle := le_of_mem_countedFrom hcounted
      have hlt := (mem_addedLines_bounds hline).2
      have hbelow := hlater later hmemLater
      omega
    · have htail : ∃ hunk ∈ hunks, Misnumbered hunk.lines := by
        obtain ⟨bad, hbad, hbadMis⟩ := h
        rcases List.mem_cons.mp hbad with rfl | hbad
        · exact absurd hbadMis hmis
        · exact ⟨bad, hbad, hbadMis⟩
      obtain ⟨line, hline, hmissed⟩ := ih hrest htail
      refine ⟨line, .inr hline, fun hmem => ?_, hmissed⟩
      rw [countedFrom_eq_addedFrom hmis] at hmem
      obtain ⟨later, hmemLater, hadded⟩ := List.mem_flatMap.mp hline
      have hle := (mem_addedLines_bounds hadded).1
      have hlt := (mem_addedLines_bounds hmem).2
      have hbelow := hlater later hmemLater
      omega

theorem FileChange.countedLines_eq {file : FileChange}
    (h : ∀ hunk ∈ file.hunks, ¬ Misnumbered hunk.lines) : file.countedLines = file.addedLines :=
  List.flatMap_congr fun hunk hhunk => countedFrom_eq_addedFrom (h hunk hhunk)

theorem FileChange.countedLines_eq_nil_iff {file : FileChange} :
    file.countedLines = [] ↔ file.addedLines = [] := by
  rw [FileChange.countedLines, FileChange.addedLines, List.flatMap_eq_nil_iff,
    List.flatMap_eq_nil_iff]
  exact forall₂_congr fun hunk _ => countedFrom_eq_nil_iff

/-! ## Diffs -/

/-- A path that is written as it is and followed by a tab. -/
def Path.Spaced (quotePath : Bool) (path : Path) : Prop :=
  path.quoted quotePath = false ∧ ' ' ∈ path.text

/-- Every file with added lines has a property. -/
def Diff.Where (diff : Diff) (property : Path → FileChange → Prop) : Prop :=
  ∀ file ∈ diff.files, ∀ path, file.paths.new = some path → file.addedLines ≠ [] →
    property path file

/-- Where lines are added, no tab follows the path and no added line follows a line about a
missing line feed. -/
def Diff.Tame (diff : Diff) : Prop :=
  diff.Where fun path file => ¬ path.Spaced diff.quotePath ∧
    ∀ hunk ∈ file.hunks, ¬ Misnumbered hunk.lines

theorem FileChange.mem_counted {quotePath : Bool} {file : FileChange} {name : Text} {line : ℕ} :
    (name, line) ∈ file.counted quotePath ↔
      ∃ path, file.paths.new = some path ∧ path.found quotePath = name ∧
        line ∈ file.countedLines := by
  rw [FileChange.counted]
  cases file.paths.new with
  | none => simp
  | some path => simp [and_comm]

theorem Diff.mem_addedLines {diff : Diff} {naming : Path → Text} {name : Text} {line : ℕ} :
    (name, line) ∈ diff.addedLines naming ↔
      ∃ file ∈ diff.files, ∃ path, file.paths.new = some path ∧ naming path = name ∧
        line ∈ file.addedLines := by
  rw [Diff.addedLines, List.mem_flatMap]
  refine exists_congr fun file => and_congr_right fun _ => ?_
  cases file.paths.new with
  | none => simp
  | some path => simp [and_comm]

/-- The map is exact if the reader records the pairs of the diff. -/
theorem Diff.exact_iff {diff : Diff} {naming : Path → Text} :
    diff.Exact naming ↔ ∀ name line,
      (∃ file ∈ diff.files, (name, line) ∈ file.counted diff.quotePath) ↔
        (name, line) ∈ diff.addedLines naming := by
  obtain ⟨changed, hparse, hholds⟩ := parseChangedLines_render diff
  have hmem (name : Text) (line : ℕ) :
      (name, line) ∈ diff.files.flatMap (FileChange.counted diff.quotePath) ↔
        ∃ file ∈ diff.files, (name, line) ∈ file.counted diff.quotePath := List.mem_flatMap
  simp only [← hmem, ← linesUnder_eq_iff]
  constructor
  · rintro ⟨changed', hparse', hexact⟩ name
    rw [hparse] at hparse'
    obtain rfl := Except.ok.inj hparse'
    rw [← hholds name, hexact name]
  · intro h
    exact ⟨changed, hparse, fun name => (hholds name).trans (h name)⟩

theorem Path.repositoryPath_eq {path : Path} (h : '\\' ∉ path.text) :
    path.repositoryPath = path.text := by
  rw [Path.repositoryPath]
  refine (List.map_congr_left fun c hc => ?_).trans (List.map_id _)
  rw [if_neg]
  · rfl
  · rintro rfl
    exact h hc

theorem Path.not_mem_repositoryPath (path : Path) : '\\' ∉ path.repositoryPath := by
  rw [Path.repositoryPath, List.mem_map]
  rintro ⟨c, -, hc⟩
  split at hc
  case isTrue => exact absurd hc (by decide)
  case isFalse hne => exact hne hc

theorem Path.found_eq {quotePath : Bool} {path : Path} (h : ¬ path.Spaced quotePath) :
    path.found quotePath = path.repositoryPath := by
  rw [Path.Spaced] at h
  rw [Path.found, if_neg h, List.append_nil]

/-- A tame diff is exact under the names of the repository. -/
theorem Diff.Tame.exact {diff : Diff} (h : diff.Tame) : diff.Exact Path.repositoryPath := by
  rw [Diff.exact_iff]
  intro name line
  rw [Diff.mem_addedLines]
  refine exists_congr fun file => and_congr_right fun hfile => ?_
  rw [FileChange.mem_counted]
  refine exists_congr fun path => and_congr_right fun hpath => ?_
  by_cases hadded : file.addedLines = []
  · rw [hadded, FileChange.countedLines_eq_nil_iff.mpr hadded]
    simp
  · obtain ⟨hspaced, hhunks⟩ := h file hfile path hpath hadded
    rw [Path.found_eq hspaced, FileChange.countedLines_eq hhunks]

/-- Where lines are added, the path has no backslash. -/
def Diff.Slashed (diff : Diff) : Prop :=
  diff.Where fun path _ => '\\' ∉ path.text

theorem Path.not_mem_text_of_not_quoted {quotePath : Bool} {path : Path} {c : Char}
    (h : path.quoted quotePath = false) (hc : mustQuote quotePath c = true) : c ∉ path.text := by
  intro hmem
  have hany : path.quoted quotePath = true := List.any_eq_true.mpr ⟨c, hmem, hc⟩
  rw [h] at hany
  cases hany

/-- Two files of a diff with one new path are one. -/
theorem Diff.eq_of_path_eq {diff : Diff} {file file' : FileChange} (hfile : file ∈ diff.files)
    (hfile' : file' ∈ diff.files) {path path' : Path} (hpath : file.paths.new = some path)
    (hpath' : file'.paths.new = some path') (heq : path.text = path'.text) : file = file' := by
  by_contra hne
  have hapart := List.pairwise_filterMap.mp diff.apart
  have : Std.Symm fun file file' : FileChange =>
      ∀ text, file.paths.new.map Path.text = some text →
        ∀ text', file'.paths.new.map Path.text = some text' → text ≠ text' :=
    ⟨fun file file' h text htext text' htext' => (h text' htext' text htext).symm⟩
  exact hapart.forall hfile hfile' hne _ (by rw [hpath]; rfl) _ (by rw [hpath']; rfl) heq

/-- The map is exact under the new paths exactly if the diff is tame and no path of its added
lines has a backslash; and under the names of the repository it is exact if the diff is tame. -/
theorem parseChangedLines_exact (diff : Diff) :
    (diff.Exact Path.text ↔ diff.Tame ∧ diff.Slashed) ∧
      (diff.Tame → diff.Exact Path.repositoryPath) := by
  refine ⟨⟨fun h => ?_, fun ⟨htame, hslashed⟩ => ?_⟩, Diff.Tame.exact⟩
  · rw [Diff.exact_iff] at h
    -- what is added is found, under the path of some file with added lines
    have hfound : diff.Where fun path _ => ∃ file' ∈ diff.files, ∃ path',
        file'.paths.new = some path' ∧ file'.addedLines ≠ [] ∧
          path'.found diff.quotePath = path.text := by
      intro file hfile path hpath hadded
      obtain ⟨line, more, hline⟩ := List.exists_cons_of_ne_nil hadded
      have hmem : line ∈ file.addedLines := hline ▸ List.mem_cons_self
      obtain ⟨file', hfile', hcounted⟩ :=
        (h path.text line).mpr (Diff.mem_addedLines.mpr ⟨file, hfile, path, hpath, rfl, hmem⟩)
      obtain ⟨path', hpath', hname, hcount⟩ := FileChange.mem_counted.mp hcounted
      refine ⟨file', hfile', path', hpath', fun hnil => ?_, hname⟩
      rw [FileChange.countedLines_eq_nil_iff.mpr hnil] at hcount
      cases hcount
    have hslashed : diff.Slashed := by
      intro file hfile path hpath hadded hmem
      obtain ⟨-, -, path', -, -, hname⟩ := hfound file hfile path hpath hadded
      rw [← hname, Path.found, List.mem_append] at hmem
      rcases hmem with hmem | hmem
      · exact path'.not_mem_repositoryPath hmem
      · split at hmem
        · exact absurd (List.mem_singleton.mp hmem) (by decide)
        · cases hmem
    -- a path with a tab after it is not found under itself, nor under another
    have hplain : diff.Where fun path _ => ¬ path.Spaced diff.quotePath := by
      intro file hfile path hpath hadded hspaced
      obtain ⟨file', hfile', path', hpath', hadded', hname⟩ :=
        hfound file hfile path hpath hadded
      by_cases hspaced' : path'.Spaced diff.quotePath
      · have htab : '\t' ∈ path.text := by
          rw [← hname, Path.found, if_pos ⟨hspaced'.1, hspaced'.2⟩]
          simp
        exact Path.not_mem_text_of_not_quoted hspaced.1 (mustQuote_of_lt (by decide)) htab
      · rw [Path.found_eq hspaced',
          Path.repositoryPath_eq (hslashed file' hfile' path' hpath' hadded')] at hname
        obtain rfl := Diff.eq_of_path_eq hfile' hfile hpath' hpath hname
        rw [hpath, Option.some.injEq] at hpath'
        exact hspaced' (hpath' ▸ hspaced)
    refine ⟨fun file hfile path hpath hadded => ⟨hplain file hfile path hpath hadded, ?_⟩, hslashed⟩
    by_contra hmis
    push Not at hmis
    obtain ⟨line, hline, hmissed⟩ := exists_missed_of_hunks file.ascending hmis
    obtain ⟨file', hfile', hcounted⟩ :=
      (h path.text line).mpr (Diff.mem_addedLines.mpr ⟨file, hfile, path, hpath, rfl, hline⟩)
    obtain ⟨path', hpath', hname, hcount⟩ := FileChange.mem_counted.mp hcounted
    have hadded' : file'.addedLines ≠ [] := by
      intro hnil
      rw [FileChange.countedLines_eq_nil_iff.mpr hnil] at hcount
      cases hcount
    rw [Path.found_eq (hplain file' hfile' path' hpath' hadded'),
      Path.repositoryPath_eq (hslashed file' hfile' path' hpath' hadded')] at hname
    obtain rfl := Diff.eq_of_path_eq hfile' hfile hpath' hpath hname
    exact hmissed hcount
  · have hexact := Diff.exact_iff.mp htame.exact
    rw [Diff.exact_iff]
    intro name line
    rw [hexact name line, Diff.mem_addedLines, Diff.mem_addedLines]
    refine exists_congr fun file => and_congr_right fun hfile => exists_congr fun path =>
      and_congr_right fun hpath => and_congr_left fun hline => ?_
    have hadded : file.addedLines ≠ [] := fun hnil => by
      rw [hnil] at hline
      cases hline
    rw [Path.repositoryPath_eq (hslashed file hfile path hpath hadded)]

/-- A file of one hunk that changes under one path. -/
def oneHunk (text : Text) (h : text ≠ []) (lines : List HunkLine) : FileChange :=
  ⟨.kept ⟨text, h⟩ ⟨text, h⟩, [], [⟨1, 1, lines, [], List.not_mem_nil⟩], List.pairwise_singleton _ _⟩

/-- A line is added to a file with a space in its path. -/
def spacedDiff : Diff :=
  ⟨true, [oneHunk ['a', ' ', 'b'] (by decide) [⟨.added, ['x'], false, by decide⟩]], by decide⟩

/-- The last line of a file gets its line feed. -/
def endedDiff : Diff :=
  ⟨true, [oneHunk ['a'] (by decide)
    [⟨.removed, ['x'], true, by decide⟩, ⟨.added, ['x'], false, by decide⟩]], by decide⟩

/-- Neither the line nor its path is found, under either naming. -/
theorem parseChangedLines_inexact :
    (¬ spacedDiff.Exact Path.text ∧ ¬ spacedDiff.Exact Path.repositoryPath) ∧
      ¬ endedDiff.Exact Path.text ∧ ¬ endedDiff.Exact Path.repositoryPath := by
  have hspaced : ¬ ∃ file ∈ spacedDiff.files,
      ((['a', ' ', 'b'], 1) : Text × ℕ) ∈ file.counted spacedDiff.quotePath := by decide
  have hended : ¬ ∃ file ∈ endedDiff.files,
      ((['a'], 1) : Text × ℕ) ∈ file.counted endedDiff.quotePath := by decide
  refine ⟨⟨fun h => hspaced ?_, fun h => hspaced ?_⟩, fun h => hended ?_, fun h => hended ?_⟩
  all_goals exact (Diff.exact_iff.mp h _ _).mpr (by decide)

end Quality
