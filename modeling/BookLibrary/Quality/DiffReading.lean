import BookLibrary.Quality.GitDiff

/-!
# Reading a diff

What the reader does with each line that git writes, and from it with each hunk, each file
and the whole diff.
-/

namespace Quality

open Text

/-! ## Numbers -/

theorem digits_append {n : ℕ} {rest : Text} (h : ∀ c ∈ rest.head?, c.isDigit = false) :
    digits (Nat.toDigits 10 n ++ rest) = some (Nat.toDigits 10 n, rest) := by
  have hdigits : ∀ c ∈ Nat.toDigits 10 n, c.isDigit = true := fun c hc =>
    Nat.isDigit_of_mem_toDigits (by decide) (by decide) hc
  have hrest : rest.takeWhile Char.isDigit = [] ∧ rest.dropWhile Char.isDigit = rest := by
    cases rest with
    | nil => exact ⟨rfl, rfl⟩
    | cons c rest =>
      have hc : ¬ c.isDigit = true := by simp [h c rfl]
      exact ⟨List.takeWhile_cons_of_neg hc, List.dropWhile_cons_of_neg hc⟩
  have htake : (Nat.toDigits 10 n ++ rest).takeWhile Char.isDigit = Nat.toDigits 10 n := by
    rw [List.takeWhile_append_of_pos hdigits, hrest.1, List.append_nil]
  have hdrop : (Nat.toDigits 10 n ++ rest).dropWhile Char.isDigit = rest := by
    rw [List.dropWhile_append_of_pos hdigits, hrest.2]
  rw [digits, htake, hdrop]
  split
  case h_1 hnil => exact absurd hnil Nat.toDigits_ne_nil
  case h_2 => rfl

theorem stripPrefix_append (mark rest : Text) : stripPrefix mark (mark ++ rest) = some rest := by
  rw [stripPrefix, if_pos (by simp), List.drop_left]

/-- A range is read up to the blank after it. -/
theorem hunkRange_renderRange (start count : ℕ) (rest : Text) :
    hunkRange (renderRange start count ++ ' ' :: rest) =
      some (Nat.toDigits 10 (rangeStart start count), ' ' :: rest) := by
  rw [renderRange, hunkRange]
  by_cases hone : count = 1
  · rw [if_pos hone, List.append_nil, digits_append (by rintro c ⟨⟩; rfl)]
    rfl
  · rw [if_neg hone, List.append_assoc, List.cons_append, digits_append (by rintro c ⟨⟩; rfl)]
    have hcomma : stripPrefix ",".toList (',' :: (Nat.toDigits 10 count ++ ' ' :: rest)) =
        some (Nat.toDigits 10 count ++ ' ' :: rest) := stripPrefix_append [','] _
    have hcount : digits (Nat.toDigits 10 count ++ ' ' :: rest) =
        some (Nat.toDigits 10 count, ' ' :: rest) := digits_append (by rintro c ⟨⟩; rfl)
    simp only [Option.bind_eq_bind, Option.bind_some, hcomma, hcount]
    rfl

theorem hunkStart_header (hunk : Hunk) (heading : Text) :
    hunkStart ("@@ -".toList ++ renderRange hunk.oldStart hunk.oldCount ++ " +".toList ++
      renderRange hunk.newStart hunk.newCount ++ " @@".toList ++ heading) =
      some (rangeStart hunk.newStart hunk.newCount) := by
  have hplus (rest : Text) : " +".toList ++ rest = ' ' :: '+' :: rest := rfl
  have hend (rest : Text) : " @@".toList ++ rest = ' ' :: '@' :: '@' :: rest := rfl
  simp only [List.append_assoc]
  rw [hunkStart, stripPrefix_append, hplus, hend]
  simp only [Option.bind_eq_bind, Option.bind_some, hunkRange_renderRange]
  rw [← hplus, stripPrefix_append]
  simp only [Option.bind_some, hunkRange_renderRange]
  rw [← hend, stripPrefix_append]
  simp only [Option.bind_some]
  exact congrArg some Nat.ofDigitChars_ten_toDigits

/-! ## Paths -/

section Paths

variable {quotePath : Bool}

theorem gitEscape_of_gitLetterOf {byte : UInt8} {letter : Char}
    (h : gitLetterOf byte = some letter) : gitEscape letter = some byte := by
  obtain ⟨entry, hentry, rfl⟩ := Option.map_eq_some_iff.mp h
  have hmem := List.mem_of_find?_eq_some hentry
  have hbyte : entry.2 = byte := by simpa using List.find?_some hentry
  subst hbyte
  revert entry
  decide

theorem gitEscape_eq_none {c : Char} (h : isOctal c = true) : gitEscape c = none := by
  rw [← escapes_eq_gitEscape]
  unfold escapes
  split
  case h_10 => rfl
  all_goals exact absurd h (by decide)

/-- What git writes quoted is decoded to the path, whatever follows it. -/
theorem decodeGitPath_quote_append {path : Text} (hpath : path.head? ≠ some '\uFEFF')
    (rest : Text) :
    decodeGitPath ('"' :: (quote gitLetterOf (mustQuote quotePath) path ++ '"' :: rest)) =
      .ok path := by
  have hread : Reads gitEscape 256 (quote gitLetterOf (mustQuote quotePath) path) (utf8 path) :=
    reads_quote (fun _ _ => gitEscape_of_gitLetterOf) (fun _ => gitEscape_eq_none)
      ⟨by simp [mustQuote], by simp [mustQuote]⟩ path
  rw [decodeGitPath_quote, decodeQuoted_closed (escapes_eq_gitEscape ▸ hread.mono (by decide)) rest,
    unmarked, if_neg hpath]

/-- The name under which the reader finds a path: as the repository names it, but with the tab
of an unquoted path that has a space. -/
def Path.found (quotePath : Bool) (path : Path) : Text :=
  path.repositoryPath ++ if path.quoted quotePath = false ∧ ' ' ∈ path.text then ['\t'] else []

theorem normalizeGitPath_of_decode {value rest : Text}
    (h : decodeGitPath value = .ok ('b' :: '/' :: rest)) :
    normalizeGitPath value = .ok (rest.map fun c => if c = '\\' then '/' else c) := by
  rw [normalizeGitPath, h]
  rfl

theorem renderSide_some (side : Char) (path : Path) :
    renderSide quotePath side (some path) =
      path.label quotePath side ++ tabAfter (path.label quotePath side) := rfl

/-- The path of the new side is found, quoted or not. -/
theorem normalizeGitPath_renderSide (path : Path) :
    normalizeGitPath (renderSide quotePath 'b' (some path)) = .ok (path.found quotePath) := by
  cases hquoted : path.quoted quotePath with
  | true =>
    have hdecode (tab : Text) : decodeGitPath (path.label quotePath 'b' ++ tab) =
        .ok ('b' :: '/' :: path.text) := by
      rw [Path.label, if_pos hquoted, List.append_assoc]
      exact decodeGitPath_quote_append (by simp) tab
    have hfound : path.found quotePath = path.repositoryPath := by
      rw [Path.found, if_neg (by simp [hquoted]), List.append_nil]
    rw [renderSide_some, hfound, normalizeGitPath_of_decode (hdecode _), Path.repositoryPath]
  | false =>
    have hlabel : path.label quotePath 'b' = 'b' :: '/' :: path.text := by
      rw [Path.label, if_neg (by simp [hquoted])]
    have hdecode (tab : Text) : decodeGitPath (path.label quotePath 'b' ++ tab) =
        .ok ('b' :: '/' :: (path.text ++ tab)) := by
      rw [hlabel]
      rfl
    rw [renderSide_some, normalizeGitPath_of_decode (hdecode _), Path.found, Path.repositoryPath,
      List.map_append, tabAfter, hlabel]
    by_cases h : ' ' ∈ path.text
    · rw [if_pos (by simp [h]), if_pos ⟨hquoted, h⟩]
      rfl
    · rw [if_neg (by simp [h]), if_neg (fun hboth => h hboth.2)]
      rfl

theorem Path.found_ne_nil (path : Path) : path.found quotePath ≠ [] := by
  have htext := path.nonempty
  rw [Path.found, Path.repositoryPath, ne_eq, List.append_eq_nil_iff, List.map_eq_nil_iff]
  exact fun h => htext h.1

theorem mustQuote_of_lt {c : Char} (h : c.toNat < 0x20) : mustQuote quotePath c = true := by
  simp [mustQuote, h]

theorem le_toNat_of_mem_quoteByte {byte : UInt8} {c : Char} (h : c ∈ quoteByte gitLetterOf byte) :
    0x20 ≤ c.toNat := by
  have hdigit {digit : ℕ} (hlt : digit < 8) : 0x20 ≤ digit.digitChar.toNat := by
    interval_cases digit <;> decide
  have hbyte := byte.toNat_lt
  rw [quoteByte] at h
  split at h
  case h_1 letter hletter =>
    obtain ⟨entry, hentry, rfl⟩ := Option.map_eq_some_iff.mp hletter
    have hmem := List.mem_of_find?_eq_some hentry
    have hletters : ∀ entry ∈ gitLetters, 0x20 ≤ entry.1.toNat := by decide
    rcases List.mem_cons.mp h with rfl | h
    · decide
    · rw [List.mem_singleton.mp h]
      exact hletters entry hmem
  case h_2 =>
    simp only [octalDigits, List.mem_cons, List.not_mem_nil, or_false] at h
    rcases h with rfl | rfl | rfl | rfl
    · decide
    all_goals exact hdigit (by omega)

/-- A path is written without control characters. -/
theorem not_mem_label {c : Char} (hc : c.toNat < 0x20) {side : Char} (hside : side ≠ c)
    (path : Path) : c ∉ path.label quotePath side := by
  have hslash : '/' ≠ c := by rintro rfl; exact absurd hc (by decide)
  have hquote : '"' ≠ c := by rintro rfl; exact absurd hc (by decide)
  rw [Path.label]
  cases hquoted : path.quoted quotePath with
  | true =>
    rw [if_pos rfl]
    simp only [List.mem_cons, List.mem_append, List.not_mem_nil, or_false, not_or]
    refine ⟨⟨Ne.symm hquote, ?_⟩, Ne.symm hquote⟩
    rw [quote, List.mem_flatMap]
    rintro ⟨d, -, hmem⟩
    split at hmem
    case isTrue =>
      obtain ⟨byte, -, hmem⟩ := List.mem_flatMap.mp hmem
      exact absurd hc (Nat.not_lt.mpr (le_toNat_of_mem_quoteByte hmem))
    case isFalse hplain =>
      obtain rfl := List.mem_singleton.mp hmem
      exact hplain (mustQuote_of_lt hc)
  | false =>
    rw [if_neg (by decide)]
    simp only [List.mem_cons, not_or]
    refine ⟨Ne.symm hside, Ne.symm hslash, fun hmem => ?_⟩
    have hany : path.quoted quotePath = true := List.any_eq_true.mpr ⟨c, hmem, mustQuote_of_lt hc⟩
    rw [hquoted] at hany
    cases hany

/-- A control character is in no text of others. -/
theorem not_mem_of_printable {text : Text} (h : text.all (fun d => decide (0x20 ≤ d.toNat)) = true)
    {c : Char} (hc : c.toNat < 0x20) : c ∉ text := fun hmem =>
  absurd hc (Nat.not_lt.mpr (of_decide_eq_true (List.all_eq_true.mp h c hmem)))

theorem not_mem_renderSide {c : Char} (hc : c.toNat < 0x20) (htab : c ≠ '\t') {side : Char}
    (hside : side ≠ c) (path : Option Path) : c ∉ renderSide quotePath side path := by
  cases path with
  | none =>
    intro h
    have hdev : "/dev/null".toList.all (fun d => decide (0x20 ≤ d.toNat)) = true := by decide
    exact not_mem_of_printable hdev hc h
  | some path =>
    rw [renderSide_some, List.mem_append, not_or, tabAfter]
    refine ⟨not_mem_label hc hside path, ?_⟩
    split
    · exact fun h => htab (List.mem_singleton.mp h)
    · exact List.not_mem_nil

theorem renderSide_ne_devNull (path : Path) :
    renderSide quotePath 'b' (some path) ≠ "/dev/null".toList := by
  have hdev : "/dev/null".toList = '/' :: "dev/null".toList := rfl
  rw [renderSide_some, Path.label, hdev]
  split
  · exact fun h => absurd (List.cons.inj h).1 (by decide)
  · exact fun h => absurd (List.cons.inj h).1 (by decide)

end Paths

/-! ## Lines -/

/-- The reader after some lines. -/
def Reader.readAll (reader : Reader) (lines : List Text) : Except String Reader :=
  lines.foldlM Reader.read reader

theorem Reader.readAll_cons {reader reader' : Reader} {line : Text} (lines : List Text)
    (h : reader.read line = .ok reader') :
    reader.readAll (line :: lines) = reader'.readAll lines := by
  rw [Reader.readAll, List.foldlM_cons, h]
  rfl

theorem Reader.readAll_append {reader reader' : Reader} {lines : List Text} (rest : List Text)
    (h : reader.readAll lines = .ok reader') :
    reader.readAll (lines ++ rest) = reader'.readAll rest := by
  rw [Reader.readAll] at h
  rw [Reader.readAll, List.foldlM_append, h]
  rfl

theorem startsWith_append {mark : String} {rest : Text} :
    startsWith mark (mark.toList ++ rest) = true := by
  rw [startsWith, List.isPrefixOf_iff_prefix]
  exact List.prefix_append _ _

theorem Reader.read_diff (reader : Reader) (rest : Text) :
    reader.read ("diff --git ".toList ++ rest) = .ok ⟨reader.changed, none, none, false⟩ := by
  rw [Reader.read, if_pos startsWith_append]
  rfl

/-- The lines about renames, modes and contents are passed over. -/
theorem Reader.read_extendedHeader (changed : Changed) (keyword : Keyword) (payload : Text) :
    Reader.read ⟨changed, none, none, false⟩ (keyword.text.toList ++ payload) =
      .ok ⟨changed, none, none, false⟩ := by
  cases keyword <;> rfl

theorem Reader.read_oldSide (changed : Changed) (rest : Text) :
    Reader.read ⟨changed, none, none, false⟩ ("--- ".toList ++ rest) =
      .ok ⟨changed, none, none, true⟩ := rfl

theorem Reader.read_newSide (changed : Changed) (quotePath : Bool) (path : Option Path) :
    Reader.read ⟨changed, none, none, true⟩ ("+++ ".toList ++ renderSide quotePath 'b' path) =
      .ok ⟨changed, path.map (·.found quotePath), none, false⟩ := by
  cases path with
  | none => rfl
  | some path =>
    have hread : Reader.read ⟨changed, none, none, true⟩
        ("+++ ".toList ++ renderSide quotePath 'b' (some path)) =
          if renderSide quotePath 'b' (some path) = "/dev/null".toList then
            .ok ⟨changed, none, none, false⟩
          else (normalizeGitPath (renderSide quotePath 'b' (some path))).bind fun path =>
            .ok ⟨changed, some path, none, false⟩ := rfl
    rw [hread, if_neg (renderSide_ne_devNull path), normalizeGitPath_renderSide]
    rfl

theorem Reader.read_hunk (reader : Reader) (hunk : Hunk) (heading : Text) :
    reader.read ("@@ -".toList ++ renderRange hunk.oldStart hunk.oldCount ++ " +".toList ++
        renderRange hunk.newStart hunk.newCount ++ " @@".toList ++ heading) =
      .ok { reader with
        nextAddedLine := some (rangeStart hunk.newStart hunk.newCount)
        awaitingNewFilePath := false } := by
  rw [Reader.read, hunkStart_header]
  simp only [List.append_assoc]
  rfl

/-! ## Hunks -/

/-- The numbers that the reader gives to the added lines: a line about a missing line feed
counts like one of the new file. -/
def countedFrom : ℕ → List HunkLine → List ℕ
  | _, [] => []
  | number, line :: rest =>
    let next := if line.noNewline then 1 else 0
    match line.kind with
    | .context => countedFrom (number + 1 + next) rest
    | .added => number :: countedFrom (number + 1 + next) rest
    | .removed => countedFrom (number + next) rest

section Hunks

variable {changed : Changed} {pairs : List (Text × ℕ)} {path : Text} {number : ℕ}

theorem Reader.read_context (hpath : path ≠ []) (text : Text) :
    Reader.read ⟨changed, some path, some number, false⟩ (' ' :: text) =
      .ok ⟨changed, some path, some (number + 1), false⟩ := by
  obtain ⟨c, path, rfl⟩ := List.exists_cons_of_ne_nil hpath
  rfl

theorem Reader.read_added (hpath : path ≠ []) (text : Text) :
    Reader.read ⟨changed, some path, some number, false⟩ ('+' :: text) =
      .ok ⟨changed.add path number, some path, some (number + 1), false⟩ := by
  obtain ⟨c, path, rfl⟩ := List.exists_cons_of_ne_nil hpath
  rfl

theorem Reader.read_removed (hpath : path ≠ []) (text : Text) :
    Reader.read ⟨changed, some path, some number, false⟩ ('-' :: text) =
      .ok ⟨changed, some path, some number, false⟩ := by
  obtain ⟨c, path, rfl⟩ := List.exists_cons_of_ne_nil hpath
  rfl

/-- The lines after the line itself: none, or one about a missing line feed. -/
theorem Reader.readAll_noNewline (hpath : path ≠ []) (noNewline : Bool) (lines : List Text) :
    Reader.readAll ⟨changed, some path, some number, false⟩
        (((if noNewline then ["\\ No newline at end of file".toList] else []).map chomp) ++ lines) =
      Reader.readAll ⟨changed, some path, some (number + if noNewline then 1 else 0), false⟩
        lines := by
  obtain ⟨c, path, rfl⟩ := List.exists_cons_of_ne_nil hpath
  cases noNewline with
  | false => rfl
  | true =>
    rw [if_pos rfl, if_pos rfl]
    exact Reader.readAll_cons lines rfl

/-- The reader records the added lines of a hunk under the path, as it counts them. -/
theorem Reader.readAll_lines (hpath : path ≠ []) (hholds : changed.Holds pairs) (number : ℕ)
    (lines : List HunkLine) :
    ∃ changed' number', Reader.readAll ⟨changed, some path, some number, false⟩
        ((lines.flatMap HunkLine.render).map chomp) =
          .ok ⟨changed', some path, some number', false⟩ ∧
      changed'.Holds (pairs ++ (countedFrom number lines).map fun line => (path, line)) := by
  induction lines generalizing changed pairs number with
  | nil => exact ⟨changed, number, rfl, by simpa [countedFrom] using hholds⟩
  | cons line lines ih =>
    have hrender : (((line :: lines).flatMap HunkLine.render).map chomp) =
        chomp (line.kind.mark :: line.text) ::
          (((if line.noNewline then ["\\ No newline at end of file".toList] else []).map chomp) ++
            (lines.flatMap HunkLine.render).map chomp) := by
      rw [List.flatMap_cons, List.map_append, HunkLine.render, List.map_cons, List.cons_append]
    rw [hrender, countedFrom]
    cases line.kind with
    | context =>
      rw [LineKind.mark, chomp_cons (by decide), Reader.readAll_cons _ (Reader.read_context hpath _),
        Reader.readAll_noNewline hpath]
      exact ih hholds _
    | added =>
      rw [LineKind.mark, chomp_cons (by decide), Reader.readAll_cons _ (Reader.read_added hpath _),
        Reader.readAll_noNewline hpath]
      obtain ⟨changed', number', hread, hchanged'⟩ := ih (hholds.add path number) _
      refine ⟨changed', number', hread, ?_⟩
      rwa [List.append_assoc, List.singleton_append] at hchanged'
    | removed =>
      rw [LineKind.mark, chomp_cons (by decide), Reader.readAll_cons _ (Reader.read_removed hpath _),
        Reader.readAll_noNewline hpath]
      exact ih hholds _

/-- Without a path the lines of a hunk are passed over. -/
theorem Reader.readAll_lines_none (lines : List HunkLine) :
    Reader.readAll ⟨changed, none, some number, false⟩
      ((lines.flatMap HunkLine.render).map chomp) = .ok ⟨changed, none, some number, false⟩ := by
  induction lines with
  | nil => rfl
  | cons line lines ih =>
    have hline : Reader.readAll ⟨changed, none, some number, false⟩ (line.render.map chomp) =
        .ok ⟨changed, none, some number, false⟩ := by
      obtain ⟨kind, text, noNewline, -⟩ := line
      cases kind <;> cases noNewline <;>
        (rw [HunkLine.render, List.map_cons, LineKind.mark, chomp_cons (by decide)]; rfl)
    rw [List.flatMap_cons, List.map_append, Reader.readAll_append _ hline, ih]

end Hunks

/-! ## Files -/

theorem not_mem_renderRange {c : Char} (hc : c.toNat < 0x20) (start count : ℕ) :
    c ∉ renderRange start count := by
  have hdigits (n : ℕ) : c ∉ Nat.toDigits 10 n := by
    intro h
    have hdigit := Nat.isDigit_of_mem_toDigits (by decide) (by decide) h
    have hle : '0' ≤ c := of_decide_eq_true (Bool.and_eq_true_iff.mp hdigit).1
    exact absurd hc (Nat.not_lt.mpr (Nat.le_trans (by decide) hle))
  rw [renderRange, List.mem_append, not_or]
  refine ⟨hdigits _, ?_⟩
  split
  · exact List.not_mem_nil
  · rw [List.mem_cons, not_or]
    refine ⟨?_, hdigits _⟩
    rintro rfl
    exact absurd hc (by decide)

/-- The head of a hunk up to its heading has no control characters. -/
theorem not_mem_header {c : Char} (hc : c.toNat < 0x20) (hunk : Hunk) :
    c ∉ "@@ -".toList ++ renderRange hunk.oldStart hunk.oldCount ++ " +".toList ++
      renderRange hunk.newStart hunk.newCount ++ " @@".toList := by
  simp only [List.mem_append, not_or]
  exact ⟨⟨⟨⟨not_mem_of_printable (by decide) hc, not_mem_renderRange hc _ _⟩,
    not_mem_of_printable (by decide) hc⟩, not_mem_renderRange hc _ _⟩,
    not_mem_of_printable (by decide) hc⟩

theorem countedFrom_eq_nil {lines : List HunkLine}
    (h : lines.countP (fun line => line.kind ≠ .removed) = 0) (number : ℕ) :
    countedFrom number lines = [] := by
  induction lines generalizing number with
  | nil => rfl
  | cons line lines ih =>
    rw [List.countP_cons, Nat.add_eq_zero_iff] at h
    have hkind : line.kind = .removed := by
      by_contra hne
      simp [hne] at h
    rw [countedFrom, hkind]
    exact ih h.1 _

/-- An empty range counts from another number, but it has nothing to count. -/
theorem countedFrom_rangeStart (hunk : Hunk) :
    countedFrom (rangeStart hunk.newStart hunk.newCount) hunk.lines =
      countedFrom hunk.newStart hunk.lines := by
  by_cases h : hunk.newCount = 0
  · rw [countedFrom_eq_nil h, countedFrom_eq_nil h]
  · rw [rangeStart, if_neg h]

theorem Hunk.render_map_chomp (hunk : Hunk) :
    hunk.render.map chomp =
      ("@@ -".toList ++ renderRange hunk.oldStart hunk.oldCount ++ " +".toList ++
        renderRange hunk.newStart hunk.newCount ++ " @@".toList ++ chomp hunk.heading) ::
      (hunk.lines.flatMap HunkLine.render).map chomp := by
  rw [Hunk.render, List.map_cons, Hunk.header, chomp_append (not_mem_header (by decide) hunk)]

/-- The numbers that the reader gives to the added lines of a file. -/
def FileChange.countedLines (file : FileChange) : List ℕ :=
  file.hunks.flatMap fun hunk => countedFrom hunk.newStart hunk.lines

section Files

variable {changed : Changed} {pairs : List (Text × ℕ)} {path : Text}

theorem Reader.readAll_hunks (hpath : path ≠ []) (hholds : changed.Holds pairs)
    (hunks : List Hunk) (next : Option ℕ) :
    ∃ changed' next', Reader.readAll ⟨changed, some path, next, false⟩
        ((hunks.flatMap Hunk.render).map chomp) = .ok ⟨changed', some path, next', false⟩ ∧
      changed'.Holds (pairs ++ (hunks.flatMap fun hunk =>
        countedFrom hunk.newStart hunk.lines).map fun line => (path, line)) := by
  induction hunks generalizing changed pairs next with
  | nil => exact ⟨changed, next, rfl, by simpa using hholds⟩
  | cons hunk hunks ih =>
    obtain ⟨changed₁, number, hlines, hholds₁⟩ := Reader.readAll_lines hpath hholds
      (rangeStart hunk.newStart hunk.newCount) hunk.lines
    rw [countedFrom_rangeStart] at hholds₁
    obtain ⟨changed₂, next', hrest, hholds₂⟩ := ih hholds₁ (some number)
    have hhunk : Reader.readAll ⟨changed, some path, next, false⟩ (hunk.render.map chomp) =
        .ok ⟨changed₁, some path, some number, false⟩ := by
      rw [Hunk.render_map_chomp, Reader.readAll_cons _ (Reader.read_hunk _ hunk _)]
      exact hlines
    refine ⟨changed₂, next', ?_, ?_⟩
    · rw [List.flatMap_cons, List.map_append, Reader.readAll_append _ hhunk, hrest]
    · rwa [List.flatMap_cons, List.map_append, ← List.append_assoc]

theorem Reader.readAll_hunks_none (changed : Changed) (hunks : List Hunk) (next : Option ℕ) :
    ∃ next', Reader.readAll ⟨changed, none, next, false⟩
      ((hunks.flatMap Hunk.render).map chomp) = .ok ⟨changed, none, next', false⟩ := by
  induction hunks generalizing next with
  | nil => exact ⟨next, rfl⟩
  | cons hunk hunks ih =>
    obtain ⟨next', hrest⟩ := ih (some (rangeStart hunk.newStart hunk.newCount))
    have hhunk : Reader.readAll ⟨changed, none, next, false⟩ (hunk.render.map chomp) =
        .ok ⟨changed, none, some (rangeStart hunk.newStart hunk.newCount), false⟩ := by
      rw [Hunk.render_map_chomp, Reader.readAll_cons _ (Reader.read_hunk _ hunk _)]
      exact Reader.readAll_lines_none hunk.lines
    exact ⟨next', by rw [List.flatMap_cons, List.map_append, Reader.readAll_append _ hhunk, hrest]⟩

/-- The lines that the reader records for a file. -/
def FileChange.counted (quotePath : Bool) (file : FileChange) : List (Text × ℕ) :=
  match file.paths.new with
  | none => []
  | some path => file.countedLines.map fun line => (path.found quotePath, line)

theorem Reader.readAll_headers (changed : Changed) (headers : List ExtendedHeader) :
    Reader.readAll ⟨changed, none, none, false⟩ ((headers.map ExtendedHeader.render).map chomp) =
      .ok ⟨changed, none, none, false⟩ := by
  induction headers with
  | nil => rfl
  | cons header headers ih =>
    have hchomp : chomp header.render = header.keyword.text.toList ++ chomp header.payload :=
      chomp_append (by cases header.keyword <;> decide) _
    rw [List.map_cons, List.map_cons, hchomp,
      Reader.readAll_cons _ (Reader.read_extendedHeader changed header.keyword _), ih]

/-- The lines of a file after its first one, the path of the old side among them. -/
def FileChange.body (quotePath : Bool) (file : FileChange) : List Text :=
  if file.hunks = [] then []
  else ("--- ".toList ++ renderSide quotePath 'a' file.paths.old) ::
    ("+++ ".toList ++ renderSide quotePath 'b' file.paths.new) :: file.hunks.flatMap Hunk.render

theorem Reader.readAll_body (quotePath : Bool) (hholds : changed.Holds pairs) (file : FileChange) :
    ∃ reader', Reader.readAll ⟨changed, none, none, false⟩ ((file.body quotePath).map chomp) =
        .ok reader' ∧ reader'.changed.Holds (pairs ++ file.counted quotePath) := by
  rw [FileChange.body]
  by_cases hhunks : file.hunks = []
  · have hcounted : file.counted quotePath = [] := by
      rw [FileChange.counted, FileChange.countedLines, hhunks]
      cases file.paths.new <;> rfl
    rw [if_pos hhunks, hcounted, List.append_nil]
    exact ⟨_, rfl, hholds⟩
  · have hold : chomp ("--- ".toList ++ renderSide quotePath 'a' file.paths.old) =
        "--- ".toList ++ chomp (renderSide quotePath 'a' file.paths.old) :=
      chomp_append (by decide) _
    have hnew : chomp ("+++ ".toList ++ renderSide quotePath 'b' file.paths.new) =
        "+++ ".toList ++ renderSide quotePath 'b' file.paths.new := by
      rw [chomp_append (by decide),
        chomp_eq_self (not_mem_renderSide (by decide) (by decide) (by decide) _)]
    rw [if_neg hhunks, List.map_cons, List.map_cons, hold, hnew,
      Reader.readAll_cons _ (Reader.read_oldSide changed _),
      Reader.readAll_cons _ (Reader.read_newSide changed quotePath _), FileChange.counted,
      FileChange.countedLines]
    cases file.paths.new with
    | none =>
      obtain ⟨next, hread⟩ := Reader.readAll_hunks_none changed file.hunks none
      exact ⟨_, hread, by rwa [List.append_nil]⟩
    | some path =>
      obtain ⟨changed', next, hread, hholds'⟩ :=
        Reader.readAll_hunks path.found_ne_nil hholds file.hunks none
      exact ⟨_, hread, hholds'⟩

/-- Wherever the reader stands before a file, it records the lines of the file. -/
theorem Reader.readAll_file (quotePath : Bool) (reader : Reader)
    (hholds : reader.changed.Holds pairs) (file : FileChange) :
    ∃ reader', reader.readAll ((file.render quotePath).map chomp) = .ok reader' ∧
      reader'.changed.Holds (pairs ++ file.counted quotePath) := by
  obtain ⟨reader', hread, hholds'⟩ := Reader.readAll_body quotePath hholds file
  refine ⟨reader', ?_, hholds'⟩
  rw [FileChange.render, ← FileChange.body, List.map_append, List.map_cons, List.append_assoc,
    List.append_assoc, chomp_append (by decide), List.cons_append,
    Reader.readAll_cons _ (Reader.read_diff reader _),
    Reader.readAll_append _ (Reader.readAll_headers reader.changed file.headers), hread]

theorem Reader.readAll_files (quotePath : Bool) (reader : Reader)
    (hholds : reader.changed.Holds pairs) (files : List FileChange) :
    ∃ reader', reader.readAll ((files.flatMap (FileChange.render quotePath)).map chomp) =
        .ok reader' ∧ reader'.changed.Holds (pairs ++ files.flatMap (FileChange.counted quotePath)) := by
  induction files generalizing reader pairs with
  | nil => exact ⟨reader, rfl, by simpa using hholds⟩
  | cons file files ih =>
    obtain ⟨reader₁, hfile, hholds₁⟩ := Reader.readAll_file quotePath reader hholds file
    obtain ⟨reader₂, hfiles, hholds₂⟩ := ih reader₁ hholds₁
    refine ⟨reader₂, ?_, ?_⟩
    · rw [List.flatMap_cons, List.map_append, Reader.readAll_append _ hfile, hfiles]
    · rwa [List.flatMap_cons, ← List.append_assoc]

/-- The piece after the last line changes no lines. -/
theorem Reader.read_nil (reader : Reader) :
    ∃ reader', reader.read [] = .ok reader' ∧ reader'.changed = reader.changed := by
  obtain ⟨changed, path, next, awaiting⟩ := reader
  cases next with
  | none => cases awaiting <;> exact ⟨_, rfl, rfl⟩
  | some next =>
    match path with
    | none | some [] | some (_ :: _) => exact ⟨_, rfl, rfl⟩

end Files

/-! ## Diffs -/

theorem not_mem_hunkRender {hunk : Hunk} : ∀ line ∈ hunk.render, '\n' ∉ line := by
  intro line hline
  rw [Hunk.render, List.mem_cons] at hline
  rcases hline with rfl | hline
  · rw [Hunk.header, List.mem_append, not_or]
    exact ⟨not_mem_header (by decide) hunk, hunk.oneLine⟩
  · obtain ⟨hunkLine, -, hmem⟩ := List.mem_flatMap.mp hline
    rw [HunkLine.render, List.mem_cons] at hmem
    rcases hmem with rfl | hmem
    · rw [List.mem_cons, not_or]
      exact ⟨by cases hunkLine.kind <;> decide, hunkLine.oneLine⟩
    · split at hmem
      · rw [List.mem_singleton.mp hmem]
        decide
      · exact absurd hmem List.not_mem_nil

theorem not_mem_fileRender {quotePath : Bool} {file : FileChange} :
    ∀ line ∈ file.render quotePath, '\n' ∉ line := by
  have hside {side : Char} (h : side ≠ '\n') (path : Option Path) :
      '\n' ∉ (path.map (·.label quotePath side)).getD [] := by
    cases path with
    | none => exact List.not_mem_nil
    | some path => exact not_mem_label (by decide) h path
  intro line hline
  rw [FileChange.render, ← FileChange.body, List.mem_append, List.mem_cons] at hline
  rcases hline with (rfl | hline) | hline
  · simp only [List.mem_append, not_or]
    exact ⟨⟨⟨by decide, hside (by decide) _⟩, by decide⟩, hside (by decide) _⟩
  · obtain ⟨header, -, rfl⟩ := List.mem_map.mp hline
    rw [ExtendedHeader.render, List.mem_append, not_or]
    exact ⟨by cases header.keyword <;> decide, header.oneLine⟩
  · rw [FileChange.body] at hline
    split at hline
    · exact absurd hline List.not_mem_nil
    · rw [List.mem_cons, List.mem_cons] at hline
      rcases hline with rfl | rfl | hline
      · rw [List.mem_append, not_or]
        exact ⟨by decide, not_mem_renderSide (by decide) (by decide) (by decide) _⟩
      · rw [List.mem_append, not_or]
        exact ⟨by decide, not_mem_renderSide (by decide) (by decide) (by decide) _⟩
      · obtain ⟨hunk, -, hmem⟩ := List.mem_flatMap.mp hline
        exact not_mem_hunkRender line hmem

/-- What the reader records for a diff. -/
theorem parseChangedLines_render (diff : Diff) :
    ∃ changed, parseChangedLines diff.render = .ok changed ∧
      changed.Holds (diff.files.flatMap (FileChange.counted diff.quotePath)) := by
  have hempty : Changed.Holds [] [] := fun _ => rfl
  obtain ⟨reader, hread, hholds⟩ := Reader.readAll_files diff.quotePath
    ⟨[], none, none, false⟩ hempty diff.files
  obtain ⟨reader', hlast, hchanged⟩ := reader.read_nil
  have hlines : ∀ line ∈ diff.files.flatMap (FileChange.render diff.quotePath), '\n' ∉ line := by
    intro line hline
    obtain ⟨file, -, hfile⟩ := List.mem_flatMap.mp hline
    exact not_mem_fileRender line hfile
  refine ⟨reader'.changed, ?_, hchanged ▸ hholds⟩
  have hall : (splitLines diff.render).foldlM Reader.read ⟨[], none, none, false⟩ = .ok reader' := by
    rw [Diff.render, splitLines_flatMap hlines]
    refine (Reader.readAll_append _ hread).trans ?_
    rw [Reader.readAll_cons _ hlast]
    rfl
  rw [parseChangedLines, hall]
  rfl

end Quality
