import BookLibrary.Quality.GitPath
import BookLibrary.Text.Lines
import Mathlib.Data.Finset.Lattice.Lemmas

/-!
# The changed lines of a diff

The reader goes through a unified diff line by line. It keeps the path of the file it is in,
the number of the next line of the new file within a hunk, and the lines that were added so
far under each path.
-/

namespace Quality

open Text

def stripPrefix (mark line : Text) : Option Text :=
  if mark.isPrefixOf line then some (line.drop mark.length) else none

def normalizeGitPath (value : Text) : Except String Text := do
  let path ← decodeGitPath value
  let path := path.map fun c => if c = '\\' then '/' else c
  let path := (stripPrefix "./".toList path).getD path
  return (stripPrefix "a/".toList path <|> stripPrefix "b/".toList path).getD path

/-- A run of decimal digits. -/
def digits (line : Text) : Option (Text × Text) :=
  match line.takeWhile Char.isDigit with
  | [] => none
  | first => some (first, line.dropWhile Char.isDigit)

/-- A number, with a comma and another one or without. -/
def hunkRange (line : Text) : Option (Text × Text) := do
  let (start, rest) ← digits line
  match (stripPrefix ",".toList rest).bind digits with
  | some (_, rest) => return (start, rest)
  | none => return (start, rest)

/-- The first number of the new file, if the line is the head of a hunk. -/
def hunkStart (line : Text) : Option ℕ := do
  let rest ← stripPrefix "@@ -".toList line
  let (_, rest) ← hunkRange rest
  let rest ← stripPrefix " +".toList rest
  let (start, rest) ← hunkRange rest
  let _ ← stripPrefix " @@".toList rest
  return Nat.ofDigitChars 10 start 0

/-- The lines by path, in the order in which the paths came. -/
abbrev Changed := List (Text × List ℕ)

def Changed.add (path : Text) (line : ℕ) : Changed → Changed
  | [] => [(path, [line])]
  | (known, lines) :: rest =>
    if path = known then (known, if line ∈ lines then lines else lines ++ [line]) :: rest
    else (known, lines) :: Changed.add path line rest

/-- The variables of the loop. -/
structure Reader where
  changed : Changed
  path : Option Text
  nextAddedLine : Option ℕ
  awaitingNewFilePath : Bool

def startsWith (mark : String) (line : Text) : Bool :=
  mark.toList.isPrefixOf line

/-- A line of a hunk, where the next line of the new file has the given number. -/
def Reader.readHunkLine (reader : Reader) (nextAddedLine : ℕ) (line : Text) : Reader :=
  match reader.path with
  -- an empty path counts as none
  | none | some [] => reader
  | some path =>
    if startsWith "+" line then
      { reader with
        changed := reader.changed.add path nextAddedLine
        nextAddedLine := some (nextAddedLine + 1) }
    else if startsWith "-" line then reader
    else { reader with nextAddedLine := some (nextAddedLine + 1) }

def Reader.read (reader : Reader) (line : Text) : Except String Reader :=
  if startsWith "diff --git " line then
    pure ⟨reader.changed, none, none, false⟩
  else
    match hunkStart line with
    | some start => pure { reader with nextAddedLine := some start, awaitingNewFilePath := false }
    | none =>
      match reader.nextAddedLine with
      | some nextAddedLine => pure (reader.readHunkLine nextAddedLine line)
      | none =>
        if startsWith "--- " line then
          pure { reader with path := none, awaitingNewFilePath := true }
        else if reader.awaitingNewFilePath && startsWith "+++ " line then do
          let candidate := line.drop 4
          if candidate = "/dev/null".toList then
            return { reader with path := none, awaitingNewFilePath := false }
          let path ← normalizeGitPath candidate
          return { reader with path := some path, awaitingNewFilePath := false }
        else pure reader

def parseChangedLines (unifiedDiff : Text) : Except String Changed := do
  let reader ← (splitLines unifiedDiff).foldlM Reader.read ⟨[], none, none, false⟩
  return reader.changed

/-! ## The lines under a path -/

def linesOf (pairs : List (Text × ℕ)) (path : Text) : List ℕ :=
  pairs.filterMap fun pair => if pair.1 = path then some pair.2 else none

/-- The lines of the pairs with the path, if there are any. -/
def linesUnder (pairs : List (Text × ℕ)) (path : Text) : Option (Finset ℕ) :=
  if linesOf pairs path = [] then none else some (linesOf pairs path).toFinset

/-- The map holds the pairs and no others. -/
def Changed.Holds (changed : Changed) (pairs : List (Text × ℕ)) : Prop :=
  ∀ path, (changed.lookup path).map List.toFinset = linesUnder pairs path

theorem Changed.lookup_add (changed : Changed) (path path' : Text) (line : ℕ) :
    ((changed.add path line).lookup path').map List.toFinset =
      if path' = path then some (insert line (((changed.lookup path).map List.toFinset).getD ∅))
      else (changed.lookup path').map List.toFinset := by
  induction changed with
  | nil =>
    by_cases h : path' = path
    · subst h
      simp [Changed.add]
    · have hne : (path' == path) = false := beq_false_of_ne h
      simp [Changed.add, List.lookup_cons, hne, h]
  | cons entry rest ih =>
    obtain ⟨known, lines⟩ := entry
    by_cases hknown : path = known
    · subst hknown
      by_cases h : path' = path
      · subst h
        by_cases hline : line ∈ lines
        · simp [Changed.add, hline]
        · simp [Changed.add, hline, List.toFinset_append]
      · have hne : (path' == path) = false := beq_false_of_ne h
        simp [Changed.add, List.lookup_cons, hne, h]
    · have hne : (path == known) = false := beq_false_of_ne hknown
      rw [Changed.add, if_neg hknown, List.lookup_cons, List.lookup_cons (a := path), hne]
      by_cases h : path' = known
      · subst h
        simp [Ne.symm hknown]
      · have hne' : (path' == known) = false := beq_false_of_ne h
        rw [List.lookup_cons, hne']
        exact ih

theorem mem_linesOf {pairs : List (Text × ℕ)} {path : Text} {line : ℕ} :
    line ∈ linesOf pairs path ↔ (path, line) ∈ pairs := by
  simp only [linesOf, List.mem_filterMap, Option.ite_none_right_eq_some, Option.some.injEq]
  constructor
  · rintro ⟨⟨path', line'⟩, hmem, rfl, rfl⟩
    exact hmem
  · exact fun hmem => ⟨_, hmem, rfl, rfl⟩

theorem linesOf_append (pairs : List (Text × ℕ)) (path path' : Text) (line : ℕ) :
    linesOf (pairs ++ [(path, line)]) path' =
      linesOf pairs path' ++ if path = path' then [line] else [] := by
  rw [linesOf, List.filterMap_append, ← linesOf]
  by_cases h : path = path' <;> simp [h]

theorem linesUnder_append (pairs : List (Text × ℕ)) (path path' : Text) (line : ℕ) :
    linesUnder (pairs ++ [(path, line)]) path' =
      if path' = path then some (insert line ((linesUnder pairs path).getD ∅))
      else linesUnder pairs path' := by
  by_cases h : path' = path
  · subst h
    rw [linesUnder, linesOf_append, if_pos rfl, if_neg (by simp), if_pos rfl, linesUnder]
    by_cases hnil : linesOf pairs path' = []
    · simp [hnil]
    · simp [hnil]
  · have hne : ¬ path = path' := fun heq => h heq.symm
    rw [linesUnder, linesOf_append, if_neg hne, List.append_nil, if_neg h, linesUnder]

theorem Changed.Holds.add {changed : Changed} {pairs : List (Text × ℕ)} (h : changed.Holds pairs)
    (path : Text) (line : ℕ) : (changed.add path line).Holds (pairs ++ [(path, line)]) := by
  intro path'
  rw [Changed.lookup_add, linesUnder_append, h path, h path']

theorem mem_linesUnder {pairs : List (Text × ℕ)} {path : Text} {line : ℕ} :
    line ∈ (linesUnder pairs path).getD ∅ ↔ (path, line) ∈ pairs := by
  rw [← mem_linesOf, linesUnder]
  by_cases hnil : linesOf pairs path = []
  · simp [hnil]
  · simp [hnil]

theorem linesUnder_eq_none {pairs : List (Text × ℕ)} {path : Text} :
    linesUnder pairs path = none ↔ ∀ line, (path, line) ∉ pairs := by
  simp only [linesUnder, ite_eq_left_iff, reduceCtorEq, imp_false, not_not,
    List.eq_nil_iff_forall_not_mem, mem_linesOf]

/-- Maps are compared by the pairs they hold. -/
theorem linesUnder_eq_iff {pairs pairs' : List (Text × ℕ)} :
    (∀ path, linesUnder pairs path = linesUnder pairs' path) ↔
      ∀ path line, (path, line) ∈ pairs ↔ (path, line) ∈ pairs' := by
  constructor
  · intro h path line
    rw [← mem_linesUnder, h path, mem_linesUnder]
  · intro h path
    have hnone : linesUnder pairs path = none ↔ linesUnder pairs' path = none := by
      simp only [linesUnder_eq_none, h]
    have hlines : (linesUnder pairs path).getD ∅ = (linesUnder pairs' path).getD ∅ := by
      ext line
      rw [mem_linesUnder, mem_linesUnder, h]
    cases hcase : linesUnder pairs path with
    | none => exact (hnone.mp hcase).symm
    | some lines =>
      cases hcase' : linesUnder pairs' path with
      | none => rw [hnone.mpr hcase'] at hcase; cases hcase
      | some lines' =>
        rw [hcase, hcase'] at hlines
        exact congrArg some hlines

end Quality
