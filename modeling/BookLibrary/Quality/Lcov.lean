import BookLibrary.Documents.Maps
import BookLibrary.Quality.DiffReading

/-!
# Reading a coverage trace

An LCOV trace is a list of records, each with the path of a source and the hits of its lines. The
reader names a source as the repository does, and keeps the last hits that it finds for a line.
-/

namespace Quality

open Documents Text

inductive ChangedLineCoverageScope where
  | backend | frontend
  deriving DecidableEq

/-- What is left of a text from the last place at which it goes on with the mark. -/
def fromLast (mark text : Text) : Option Text :=
  (text.tails.filter fun rest => mark.isPrefixOf rest).getLast?

/-- `^[A-Za-z]:\/` -/
def startsWithDrive : Text → Bool
  | letter :: ':' :: '/' :: _ => letter.isAlpha
  | _ => false

def normalizeLcovPath (value : Text) (scope : ChangedLineCoverageScope) : Text :=
  let path := value.map fun c => if c = '\\' then '/' else c
  let normalized := (stripPrefix "./".toList path).getD path
  let isAbsolute := startsWith "/" normalized || startsWithDrive normalized
  if isAbsolute then
    let marker := if scope = .backend then "/src/" else "/frontend/src/"
    match fromLast marker.toList normalized with
    | some rest => rest.drop 1
    | none => normalized
  else if scope = .frontend && startsWith "src/" normalized then "frontend/".toList ++ normalized
  else normalized

/-- `^DA:(\d+),(\d+)`: the two numbers. -/
def daRecord (line : Text) : Option (ℕ × ℕ) := do
  let rest ← stripPrefix "DA:".toList line
  let (number, rest) ← digits rest
  let rest ← stripPrefix ",".toList rest
  let (hits, _) ← digits rest
  return (Nat.ofDigitChars 10 number 0, Nat.ofDigitChars 10 hits 0)

/-- The hits by line, by path. -/
abbrev Lcov := List (Text × List (ℕ × ℕ))

structure LcovReader where
  lcov : Lcov
  path : Option Text

def LcovReader.read (scope : ChangedLineCoverageScope) (reader : LcovReader) (line : Text) :
    LcovReader :=
  if startsWith "SF:" line then
    let path := normalizeLcovPath (line.drop 3) scope
    { lcov := if (getEntry path reader.lcov).isSome then reader.lcov
        else setEntry path [] reader.lcov
      path := some path }
  else
    let lcov := match daRecord line, reader.path with
      | none, _ | some _, none | some _, some [] => reader.lcov
      | some (number, hits), some path =>
        setEntry path (setEntry number hits ((getEntry path reader.lcov).getD [])) reader.lcov
    { lcov := lcov
      path := if line = "end_of_record".toList then none else reader.path }

def parseLcov (raw : Text) (scope : ChangedLineCoverageScope) : Lcov :=
  ((splitLines raw).foldl (LcovReader.read scope) ⟨[], none⟩).lcov

/-! ## Traces -/

/-- A line of a record: the hits of a line of the source, perhaps with a checksum, or one that is
neither that nor the start or the end of a record. -/
inductive LcovEntry where
  | data (number hits : ℕ) (checksum : Option Text)
  | other (text : Text)

def LcovEntry.render : LcovEntry → Text
  | .data number hits checksum =>
    "DA:".toList ++ Nat.toDigits 10 number ++ ',' :: Nat.toDigits 10 hits ++
      (checksum.map (',' :: ·)).getD []
  | .other text => text

/-- The lines by which a record starts and ends, and the data of a line. -/
def lcovKeywords : List String := ["SF:", "DA:", "end_of_record"]

/-- The entry is one line, and an entry without hits is nothing else. -/
def LcovEntry.WellFormed : LcovEntry → Prop
  | .data _ _ checksum => ∀ text ∈ checksum, '\n' ∉ text ∧ '\r' ∉ text
  | .other text => '\n' ∉ text ∧ '\r' ∉ text ∧ ∀ word ∈ lcovKeywords, startsWith word text = false

structure LcovRecord where
  source : Text
  entries : List LcovEntry
  oneLine : '\n' ∉ source ∧ '\r' ∉ source
  wellFormed : ∀ entry ∈ entries, entry.WellFormed

/-- The lines of a record, after the one with the name of its test. -/
def LcovRecord.render (record : LcovRecord) : List Text :=
  "TN:".toList :: ("SF:".toList ++ record.source) ::
    (record.entries.map LcovEntry.render ++ ["end_of_record".toList])

structure LcovTrace where
  records : List LcovRecord

def LcovTrace.render (trace : LcovTrace) : Text :=
  (trace.records.flatMap LcovRecord.render).flatMap (· ++ ['\n'])

def LcovEntry.hits : LcovEntry → Option (ℕ × ℕ)
  | .data number hits _ => some (number, hits)
  | .other _ => none

def LcovRecord.path (scope : ChangedLineCoverageScope) (record : LcovRecord) : Text :=
  normalizeLcovPath record.source scope

/-- The hits of the records, in their order. -/
def LcovTrace.hits (trace : LcovTrace) (scope : ChangedLineCoverageScope) : List (Text × ℕ × ℕ) :=
  trace.records.flatMap fun record =>
    (record.entries.filterMap LcovEntry.hits).map fun data => (record.path scope, data)

/-- The last hits that are given for a line. -/
def lastHits (hits : List (Text × ℕ × ℕ)) (path : Text) (number : ℕ) : Option ℕ :=
  (hits.filterMap fun hit => if hit.1 = path ∧ hit.2.1 = number then some hit.2.2 else none).getLast?

/-! ## Lines of a trace -/

theorem daRecord_data (number hits : ℕ) (checksum : Option Text) :
    daRecord (LcovEntry.data number hits checksum).render = some (number, hits) := by
  have hcomma (rest : Text) : stripPrefix ",".toList (',' :: rest) = some rest :=
    stripPrefix_append [','] rest
  have hnumber (rest : Text) : digits (Nat.toDigits 10 number ++ ',' :: rest) =
      some (Nat.toDigits 10 number, ',' :: rest) := digits_append (by rintro c ⟨⟩; rfl)
  have hhits : digits (Nat.toDigits 10 hits ++ (checksum.map (',' :: ·)).getD []) =
      some (Nat.toDigits 10 hits, (checksum.map (',' :: ·)).getD []) := by
    refine digits_append ?_
    cases checksum with
    | none => rintro c ⟨⟩
    | some text => rintro c ⟨⟩; rfl
  rw [LcovEntry.render, daRecord, List.append_assoc, List.append_assoc, List.cons_append,
    stripPrefix_append]
  simp only [Option.bind_eq_bind, Option.bind_some, hnumber, hcomma, hhits]
  exact congrArg some (Prod.ext Nat.ofDigitChars_ten_toDigits Nat.ofDigitChars_ten_toDigits)

theorem daRecord_none {line : Text} (h : startsWith "DA:" line = false) : daRecord line = none := by
  have hstrip : stripPrefix "DA:".toList line = none :=
    if_neg fun hda => Bool.false_ne_true (h.symm.trans hda)
  rw [daRecord, hstrip]
  rfl

theorem chomp_entry {entry : LcovEntry} (h : entry.WellFormed) :
    '\n' ∉ entry.render ∧ '\r' ∉ entry.render := by
  have hdigit {n : ℕ} {c : Char} (hc : c.isDigit = false) : c ∉ Nat.toDigits 10 n := fun hmem => by
    rw [Nat.isDigit_of_mem_toDigits (by decide) (by decide) hmem] at hc
    cases hc
  cases entry with
  | other text => exact ⟨h.1, h.2.1⟩
  | data number hits checksum =>
    have hend {c : Char} (hne : c ≠ ',') (hc : ∀ text ∈ checksum, c ∉ text) :
        c ∉ (checksum.map (',' :: ·)).getD [] := by
      cases checksum with
      | none => exact List.not_mem_nil
      | some text => exact List.not_mem_cons_of_ne_of_not_mem hne (hc text rfl)
    simp only [LcovEntry.render, List.mem_append, List.mem_cons, not_or]
    exact ⟨⟨⟨⟨by decide, hdigit rfl⟩, by decide, hdigit rfl⟩, hend (by decide) fun t ht => (h t ht).1⟩,
      ⟨⟨by decide, hdigit rfl⟩, by decide, hdigit rfl⟩, hend (by decide) fun t ht => (h t ht).2⟩

section Reading

variable {scope : ChangedLineCoverageScope} {lcov : Lcov} {path : Option Text}

theorem LcovReader.read_name : LcovReader.read scope ⟨lcov, path⟩ "TN:".toList = ⟨lcov, path⟩ := by
  cases path <;> rfl

theorem LcovReader.read_source (source : Text) :
    LcovReader.read scope ⟨lcov, path⟩ ("SF:".toList ++ source) =
      ⟨if (getEntry (normalizeLcovPath source scope) lcov).isSome then lcov
        else setEntry (normalizeLcovPath source scope) [] lcov,
        some (normalizeLcovPath source scope)⟩ := by
  rw [LcovReader.read, if_pos startsWith_append]
  rfl

theorem LcovReader.read_end :
    LcovReader.read scope ⟨lcov, path⟩ "end_of_record".toList = ⟨lcov, none⟩ := by
  cases path <;> rfl

theorem LcovReader.read_other {text : Text} (h : (LcovEntry.other text).WellFormed) :
    LcovReader.read scope ⟨lcov, path⟩ text = ⟨lcov, path⟩ := by
  have hsource : startsWith "SF:" text = false := h.2.2 _ (by decide)
  have hdata : startsWith "DA:" text = false := h.2.2 _ (by decide)
  have hend : text ≠ "end_of_record".toList := by
    rintro rfl
    exact absurd (h.2.2 "end_of_record" (by decide)) (by decide)
  rw [LcovReader.read, if_neg (by simp [hsource]), daRecord_none hdata, if_neg hend]

theorem LcovReader.read_data (known : Text) (number hits : ℕ) (checksum : Option Text) :
    LcovReader.read scope ⟨lcov, some known⟩ (LcovEntry.data number hits checksum).render =
      ⟨if known = [] then lcov
        else setEntry known (setEntry number hits ((getEntry known lcov).getD [])) lcov,
        some known⟩ := by
  have hda := daRecord_data number hits checksum
  have hsource : startsWith "SF:" (LcovEntry.data number hits checksum).render = false := rfl
  have hend : (LcovEntry.data number hits checksum).render ≠ "end_of_record".toList := fun h => by
    have hhead : some 'D' = some 'e' := congrArg List.head? h
    exact absurd hhead (by decide)
  rw [LcovReader.read, if_neg (by rw [hsource]; exact Bool.false_ne_true), hda]
  simp only [if_neg hend]
  cases known <;> simp

end Reading

/-! ## Traces -/

section Traces

variable {scope : ChangedLineCoverageScope} {lcov : Lcov} {sources : List Text}
  {hits : List (Text × ℕ × ℕ)} {path : Text}

theorem lastHits_append (hits : List (Text × ℕ × ℕ)) (known path : Text) (line number count : ℕ) :
    lastHits (hits ++ [(known, line, count)]) path number =
      if known = path ∧ line = number then some count else lastHits hits path number := by
  rw [lastHits, List.filterMap_append, List.filterMap_cons]
  by_cases h : known = path ∧ line = number
  · simp [h]
  · simp only [if_neg h, List.filterMap_nil, List.append_nil, lastHits]

/-- The map has the sources, and under each of them that is not empty the last hits of its lines. -/
structure Lcov.Holds (lcov : Lcov) (sources : List Text) (hits : List (Text × ℕ × ℕ)) : Prop where
  known : ∀ path, (getEntry path lcov).isSome = true ↔ path ∈ sources
  counts : ∀ path, path ≠ [] → ∀ number,
    (getEntry path lcov).bind (getEntry number) = lastHits hits path number

theorem Lcov.Holds.source (h : lcov.Holds sources hits) (path : Text) :
    Lcov.Holds (if (getEntry path lcov).isSome then lcov else setEntry path [] lcov)
      (sources ++ [path]) hits := by
  by_cases hknown : (getEntry path lcov).isSome = true
  · rw [if_pos hknown]
    refine ⟨fun path' => ?_, h.counts⟩
    rw [h.known, List.mem_append, List.mem_singleton]
    refine ⟨.inl, fun hmem => hmem.elim id ?_⟩
    rintro rfl
    exact (h.known _).mp hknown
  · rw [if_neg hknown]
    refine ⟨fun path' => ?_, fun path' hne number => ?_⟩
    · rw [getEntry_setEntry, List.mem_append, List.mem_singleton, ← h.known]
      by_cases heq : path = path'
      · simp [heq]
      · simp [heq, Ne.symm heq]
    · rw [getEntry_setEntry, ← h.counts path' hne]
      by_cases heq : path = path'
      · subst heq
        rw [if_pos rfl, Option.not_isSome_iff_eq_none.mp hknown]
        rfl
      · rw [if_neg heq]

theorem Lcov.Holds.data (h : lcov.Holds sources hits) (hpath : path ∈ sources) (number count : ℕ) :
    Lcov.Holds (if path = [] then lcov
      else setEntry path (setEntry number count ((getEntry path lcov).getD [])) lcov)
      sources (hits ++ [(path, number, count)]) := by
  by_cases hnil : path = []
  · -- the data of a source without a path is passed over
    subst hnil
    rw [if_pos rfl]
    refine ⟨h.known, fun path' hne number' => ?_⟩
    rw [lastHits_append, if_neg fun heq => hne heq.1.symm, h.counts path' hne]
  · rw [if_neg hnil]
    refine ⟨fun path' => ?_, fun path' hne number' => ?_⟩
    · rw [getEntry_setEntry, ← h.known]
      by_cases heq : path = path'
      · subst heq
        simpa using (h.known path).mpr hpath
      · simp [heq]
    · rw [getEntry_setEntry, lastHits_append, ← h.counts path' hne]
      by_cases heq : path = path'
      · subst heq
        obtain ⟨lines, hlines⟩ := Option.isSome_iff_exists.mp ((h.known path).mpr hpath)
        rw [if_pos rfl, hlines, Option.getD_some, Option.bind_some, Option.bind_some,
          getEntry_setEntry]
        simp
      · simp [heq]

/-- The entries of a record add their hits under the path of its source. -/
theorem LcovReader.read_entries (h : lcov.Holds sources hits) (hpath : path ∈ sources)
    {entries : List LcovEntry} (hentries : ∀ entry ∈ entries, entry.WellFormed) :
    ∃ lcov', (entries.map LcovEntry.render).foldl (LcovReader.read scope) ⟨lcov, some path⟩ =
        ⟨lcov', some path⟩ ∧
      lcov'.Holds sources (hits ++ (entries.filterMap LcovEntry.hits).map fun data => (path, data)) := by
  induction entries generalizing lcov hits with
  | nil => exact ⟨lcov, rfl, by simpa using h⟩
  | cons entry entries ih =>
    have hrest : ∀ entry ∈ entries, entry.WellFormed := fun e he =>
      hentries e (List.mem_cons_of_mem _ he)
    rw [List.map_cons, List.foldl_cons]
    cases entry with
    | other text =>
      rw [LcovEntry.render, LcovReader.read_other (hentries _ List.mem_cons_self)]
      exact ih h hrest
    | data number count checksum =>
      rw [LcovReader.read_data]
      obtain ⟨lcov', hfold, hholds⟩ := ih (h.data hpath number count) hrest
      refine ⟨lcov', hfold, ?_⟩
      simpa [LcovEntry.hits, List.append_assoc] using hholds

theorem LcovReader.read_record (h : lcov.Holds sources hits) (start : Option Text)
    (record : LcovRecord) :
    ∃ lcov', record.render.foldl (LcovReader.read scope) ⟨lcov, start⟩ = ⟨lcov', none⟩ ∧
      lcov'.Holds (sources ++ [record.path scope])
        (hits ++ (record.entries.filterMap LcovEntry.hits).map fun data =>
          (record.path scope, data)) := by
  have hsource := h.source (record.path scope)
  have hmem : record.path scope ∈ sources ++ [record.path scope] :=
    List.mem_append_right _ (List.mem_singleton_self _)
  obtain ⟨lcov', hfold, hholds⟩ := LcovReader.read_entries hsource hmem record.wellFormed
  refine ⟨lcov', ?_, hholds⟩
  rw [LcovRecord.render, List.foldl_cons, LcovReader.read_name, List.foldl_cons,
    LcovReader.read_source, List.foldl_append]
  refine (congrArg (fun reader => ["end_of_record".toList].foldl (LcovReader.read scope) reader)
    hfold).trans ?_
  exact @LcovReader.read_end scope _ _

theorem LcovReader.read_records (h : lcov.Holds sources hits) (records : List LcovRecord)
    (start : Option Text) :
    ∃ reader, (records.flatMap LcovRecord.render).foldl (LcovReader.read scope) ⟨lcov, start⟩ =
        reader ∧
      reader.lcov.Holds (sources ++ records.map (·.path scope))
        (hits ++ records.flatMap fun record =>
          (record.entries.filterMap LcovEntry.hits).map fun data => (record.path scope, data)) := by
  induction records generalizing lcov sources hits start with
  | nil => exact ⟨_, rfl, by simpa using h⟩
  | cons record records ih =>
    obtain ⟨lcov₁, hfold₁, hholds₁⟩ := LcovReader.read_record h start record
    obtain ⟨reader, hfold, hholds⟩ := ih hholds₁ none
    refine ⟨reader, ?_, ?_⟩
    · rw [List.flatMap_cons, List.foldl_append, hfold₁, hfold]
    · simpa [List.append_assoc] using hholds

theorem not_mem_recordRender {record : LcovRecord} :
    ∀ line ∈ record.render, '\n' ∉ line ∧ '\r' ∉ line := by
  intro line hline
  rw [LcovRecord.render, List.mem_cons, List.mem_cons, List.mem_append, List.mem_singleton] at hline
  rcases hline with rfl | rfl | hline | rfl
  · decide
  · simp only [List.mem_append, not_or]
    exact ⟨⟨by decide, record.oneLine.1⟩, by decide, record.oneLine.2⟩
  · obtain ⟨entry, hentry, rfl⟩ := List.mem_map.mp hline
    exact chomp_entry (record.wellFormed entry hentry)
  · decide

/-- What the reader finds in a trace. -/
theorem parseLcov_render (trace : LcovTrace) (scope : ChangedLineCoverageScope) :
    (parseLcov trace.render scope).Holds (trace.records.map (·.path scope)) (trace.hits scope) := by
  have hempty : Lcov.Holds [] [] [] :=
    ⟨fun path => by simp [getEntry], fun path _ number => by simp [getEntry, lastHits]⟩
  have hlines : ∀ line ∈ trace.records.flatMap LcovRecord.render, '\n' ∉ line ∧ '\r' ∉ line := by
    intro line hline
    obtain ⟨record, -, hmem⟩ := List.mem_flatMap.mp hline
    exact not_mem_recordRender line hmem
  have hsplit : splitLines trace.render = trace.records.flatMap LcovRecord.render ++ [[]] := by
    rw [LcovTrace.render, splitLines_flatMap fun line hline => (hlines line hline).1]
    congr 1
    exact (List.map_congr_left fun line hline => chomp_eq_self (hlines line hline).2).trans
      (List.map_id _)
  obtain ⟨⟨lcov, path⟩, hfold, hholds⟩ :=
    LcovReader.read_records hempty trace.records none
  have hlast : LcovReader.read scope ⟨lcov, path⟩ [] = ⟨lcov, path⟩ := by cases path <;> rfl
  rw [parseLcov, hsplit, List.foldl_append, hfold, List.foldl_cons, List.foldl_nil, hlast]
  simpa [LcovTrace.hits] using hholds

end Traces

/-! ## Sources of a checkout -/

theorem fromLast_cons (mark : Text) (c : Char) (text : Text) :
    fromLast mark (c :: text) =
      (fromLast mark text).or (if mark.isPrefixOf (c :: text) then some (c :: text) else none) := by
  rw [fromLast, List.tails_cons, List.filter_cons, fromLast]
  by_cases h : mark.isPrefixOf (c :: text) = true
  · rw [if_pos h, if_pos h, List.getLast?_cons]
    cases (text.tails.filter fun rest => mark.isPrefixOf rest).getLast? <;> rfl
  · rw [if_neg h, if_neg h, Option.or_none]

/-- The last place is the one after which the mark does not come again. -/
theorem fromLast_append (mark start : Text) {c : Char} {rest : Text}
    (hmark : mark.isPrefixOf (c :: rest) = true) (hlast : fromLast mark rest = none) :
    fromLast mark (start ++ c :: rest) = some (c :: rest) := by
  induction start with
  | nil => rw [List.nil_append, fromLast_cons, hlast, if_pos hmark, Option.none_or]
  | cons d start ih => rw [List.cons_append, fromLast_cons, ih, Option.some_or]

/-- Wherever the checkout is, a source of the backend is named from its root, unless its path has
another `src` directory. -/
theorem normalizeLcovPath_rooted {root path : Text} (hroot : startsWith "/" root = true)
    (hslash : '\\' ∉ root ++ path) (hsource : startsWith "src/" path = true)
    (hlast : fromLast "/src/".toList path = none) :
    normalizeLcovPath (root ++ '/' :: path) .backend = path := by
  have hplain : (root ++ '/' :: path).map (fun c => if c = '\\' then '/' else c) =
      root ++ '/' :: path := by
    refine (List.map_congr_left fun c hc => if_neg ?_).trans (List.map_id _)
    rintro rfl
    rw [List.mem_append, List.mem_cons] at hc
    rw [List.mem_append, not_or] at hslash
    rcases hc with hc | hc | hc
    · exact hslash.1 hc
    · exact absurd hc (by decide)
    · exact hslash.2 hc
  cases root with
  | nil => cases hroot
  | cons c root =>
    obtain rfl : '/' = c := by simpa [startsWith] using hroot
    have hmark : "/src/".toList.isPrefixOf ('/' :: path) = true := by
      simpa [startsWith] using hsource
    have hstrip : stripPrefix "./".toList ('/' :: root ++ '/' :: path) = none := rfl
    have hfrom : fromLast "/src/".toList ('/' :: root ++ '/' :: path) = some ('/' :: path) :=
      fromLast_append _ _ hmark hlast
    rw [normalizeLcovPath, hplain]
    simp only [hstrip, Option.getD_none, if_true, hfrom]
    rfl

end Quality
