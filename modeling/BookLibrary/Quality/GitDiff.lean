import BookLibrary.Quality.ChangedLines
import Mathlib.Data.List.Pairwise

/-!
# The diffs that git writes

A diff is a list of file changes. Each is written with its paths, the lines that git adds
about renames, modes and contents, and its hunks. A path is quoted when it has an unusual
character, and a tab follows one with a space.
-/

namespace Quality

open Text

/-! ## Paths -/

structure Path where
  text : Text
  nonempty : text ≠ []

/-- The characters that git quotes: control characters, the quote and the backslash, and those
outside ASCII when it is told so. -/
def mustQuote (quotePath : Bool) (c : Char) : Bool :=
  decide (c.toNat < 0x20) || c == '"' || c == '\\' || decide (c.toNat = 0x7f) ||
    (quotePath && decide (0x80 ≤ c.toNat))

def gitLetterOf (byte : UInt8) : Option Char :=
  (gitLetters.find? fun entry => entry.2 == byte).map Prod.fst

def Path.quoted (quotePath : Bool) (path : Path) : Bool :=
  path.text.any (mustQuote quotePath)

/-- The path after the letter of its side. -/
def Path.label (quotePath : Bool) (side : Char) (path : Path) : Text :=
  if path.quoted quotePath then
    '"' :: quote gitLetterOf (mustQuote quotePath) (side :: '/' :: path.text) ++ ['"']
  else side :: '/' :: path.text

/-- The path as the repository names it. -/
def Path.repositoryPath (path : Path) : Text :=
  path.text.map fun c => if c = '\\' then '/' else c

/-- The file that changes, under the paths that it has before and after. -/
inductive Paths
  | created (path : Path)
  | deleted (path : Path)
  | kept (old new : Path)

def Paths.old : Paths → Option Path
  | .created _ => none
  | .deleted path => some path
  | .kept old _ => some old

def Paths.new : Paths → Option Path
  | .created path => some path
  | .deleted _ => none
  | .kept _ new => some new

/-! ## Hunks -/

inductive LineKind
  | context
  | added
  | removed
  deriving DecidableEq

def LineKind.mark : LineKind → Char
  | .context => ' '
  | .added => '+'
  | .removed => '-'

structure HunkLine where
  kind : LineKind
  text : Text
  noNewline : Bool
  oneLine : '\n' ∉ text

def HunkLine.render (line : HunkLine) : List Text :=
  (line.kind.mark :: line.text) ::
    if line.noNewline then ["\\ No newline at end of file".toList] else []

structure Hunk where
  oldStart : ℕ
  newStart : ℕ
  lines : List HunkLine
  heading : Text
  oneLine : '\n' ∉ heading

def Hunk.oldCount (hunk : Hunk) : ℕ :=
  hunk.lines.countP fun line => line.kind ≠ .added

def Hunk.newCount (hunk : Hunk) : ℕ :=
  hunk.lines.countP fun line => line.kind ≠ .removed

/-- The first number of a range and its length, which is left out when it is one. An empty
range is named by the number before it. -/
def rangeStart (start count : ℕ) : ℕ :=
  if count = 0 then start - 1 else start

def renderRange (start count : ℕ) : Text :=
  Nat.toDigits 10 (rangeStart start count) ++
    if count = 1 then [] else ',' :: Nat.toDigits 10 count

def Hunk.header (hunk : Hunk) : Text :=
  "@@ -".toList ++ renderRange hunk.oldStart hunk.oldCount ++ " +".toList ++
    renderRange hunk.newStart hunk.newCount ++ " @@".toList ++ hunk.heading

def Hunk.render (hunk : Hunk) : List Text :=
  hunk.header :: hunk.lines.flatMap HunkLine.render

/-- The numbers of the added lines, when the next line of the new file has the given one. -/
def addedFrom : ℕ → List HunkLine → List ℕ
  | _, [] => []
  | number, line :: rest =>
    match line.kind with
    | .context => addedFrom (number + 1) rest
    | .added => number :: addedFrom (number + 1) rest
    | .removed => addedFrom number rest

/-! ## Files -/

inductive Keyword
  | oldMode | newMode | deletedFileMode | newFileMode | copyFrom | copyTo | renameFrom | renameTo
  | similarityIndex | dissimilarityIndex | index | binaryFiles

def Keyword.text : Keyword → String
  | .oldMode => "old mode "
  | .newMode => "new mode "
  | .deletedFileMode => "deleted file mode "
  | .newFileMode => "new file mode "
  | .copyFrom => "copy from "
  | .copyTo => "copy to "
  | .renameFrom => "rename from "
  | .renameTo => "rename to "
  | .similarityIndex => "similarity index "
  | .dissimilarityIndex => "dissimilarity index "
  | .index => "index "
  | .binaryFiles => "Binary files "

/-- A line between the paths of a change and its hunks. -/
structure ExtendedHeader where
  keyword : Keyword
  payload : Text
  oneLine : '\n' ∉ payload

def ExtendedHeader.render (header : ExtendedHeader) : Text :=
  header.keyword.text.toList ++ header.payload

structure FileChange where
  paths : Paths
  headers : List ExtendedHeader
  hunks : List Hunk
  /-- The hunks stand in the order of the new file. -/
  ascending : hunks.Pairwise fun hunk later => hunk.newStart + hunk.newCount ≤ later.newStart

/-- A tab ends a path that has a space. -/
def tabAfter (label : Text) : Text :=
  if ' ' ∈ label then ['\t'] else []

def renderSide (quotePath : Bool) (side : Char) : Option Path → Text
  | none => "/dev/null".toList
  | some path => path.label quotePath side ++ tabAfter (path.label quotePath side)

def FileChange.render (quotePath : Bool) (file : FileChange) : List Text :=
  ("diff --git ".toList ++
      ((file.paths.old <|> file.paths.new).map (·.label quotePath 'a')).getD [] ++ [' '] ++
      ((file.paths.new <|> file.paths.old).map (·.label quotePath 'b')).getD []) ::
    file.headers.map ExtendedHeader.render ++
    if file.hunks = [] then []
    else ("--- ".toList ++ renderSide quotePath 'a' file.paths.old) ::
      ("+++ ".toList ++ renderSide quotePath 'b' file.paths.new) ::
      file.hunks.flatMap Hunk.render

/-- The numbers of the lines that the change adds to the new file. -/
def FileChange.addedLines (file : FileChange) : List ℕ :=
  file.hunks.flatMap fun hunk => addedFrom hunk.newStart hunk.lines

structure Diff where
  quotePath : Bool
  files : List FileChange
  /-- No two files of a diff have one new path. -/
  apart : (files.filterMap fun file => file.paths.new.map Path.text).Nodup

def Diff.render (diff : Diff) : Text :=
  (diff.files.flatMap (FileChange.render diff.quotePath)).flatMap (· ++ ['\n'])

/-- The added lines of the diff with the new path of their file, under the given naming. -/
def Diff.addedLines (diff : Diff) (name : Path → Text) : List (Text × ℕ) :=
  diff.files.flatMap fun file =>
    match file.paths.new with
    | none => []
    | some path => file.addedLines.map fun line => (name path, line)

/-- The reader finds the added lines of the diff under the names of their files, and nothing
else. -/
def Diff.Exact (diff : Diff) (name : Path → Text) : Prop :=
  ∃ changed, parseChangedLines diff.render = .ok changed ∧ changed.Holds (diff.addedLines name)

end Quality
