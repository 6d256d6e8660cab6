import BookLibrary.Pattern.Spelling

/-!
# Literal search

What a user searches for is turned into a regular expression that ignores letter case. The
characters with a meaning in patterns are escaped first.
-/

namespace Search

open Pattern

/-- The characters of the class `[.*+?^${}()|[\]\\]`. -/
def metacharacters : List Char :=
  ['.', '*', '+', '?', '^', '$', '{', '}', '(', ')', '|', '[', ']', '\\']

def escapeRegExp (value : List CodeUnit) : List CodeUnit :=
  value.flatMap fun unit =>
    if charOf unit ∈ metacharacters then [unitOf '\\', unit] else [unit]

structure RegExp where
  node : Node
  ignoreCase : Bool

/-- A pattern that does not parse makes no regular expression. -/
def newRegExp (pattern : List CodeUnit) (ignoreCase : Bool) : Option RegExp :=
  (parse pattern).map fun node => ⟨node, ignoreCase⟩

/-- Letter case is ignored by the function that brings units to one case. -/
def RegExp.test (canonicalize : CodeUnit → CodeUnit) (search : RegExp) (text : List CodeUnit) :
    Bool :=
  Pattern.test (if search.ignoreCase then canonicalize else id) text search.node

def containsLiteral (value : List CodeUnit) : Option RegExp :=
  newRegExp (escapeRegExp value) true

/-- What is escaped is what has a meaning in a pattern. -/
theorem mem_metacharacters_iff {c : Char} : c ∈ metacharacters ↔ c ∈ syntaxCharacters := by
  simp only [metacharacters, syntaxCharacters, List.mem_cons, List.not_mem_nil, or_false]
  tauto

theorem isAlphanum_of_mem_metacharacters {c : Char} (h : c ∈ metacharacters) :
    c.isAlphanum = false := by
  have hall : metacharacters.all (fun c => !c.isAlphanum) = true := by decide
  simpa using List.all_eq_true.mp hall c h

/-- An escaped text spells itself, whatever stands next to what. -/
theorem spells_escapeRegExp (value : List CodeUnit) : Spells (escapeRegExp value) value := by
  induction value with
  | nil => exact .nil
  | cons unit value ih =>
    rw [escapeRegExp, List.flatMap_cons]
    by_cases h : charOf unit ∈ metacharacters
    · rw [if_pos h]
      exact .escaped (by decide) (isAlphanum_of_mem_metacharacters h) ih
    · rw [if_neg h]
      exact .plain (fun hsyntax => h (mem_metacharacters_iff.mpr hsyntax)) ih

/-- The search for any text is the search for a literal, and it finds the texts that contain
it, letter case ignored. -/
theorem containsLiteral_exact (canonicalize : CodeUnit → CodeUnit) (value : List CodeUnit) :
    parse (escapeRegExp value) = some (literal value) ∧
    ∃ search, containsLiteral value = some search ∧ ∀ text,
      search.test canonicalize text = true ↔
        value.map canonicalize <:+: text.map canonicalize := by
  have hparse := (spells_escapeRegExp value).parse_eq
  refine ⟨hparse, ⟨literal value, true⟩, ?_, fun text => test_literal value⟩
  rw [containsLiteral, newRegExp, hparse]
  rfl

example : (parse ("a.(b|[^c]{2,}?)\\1".toList.map unitOf)).isSome = true ∧
    parse ("*".toList.map unitOf) = none ∧ parse ("\\".toList.map unitOf) = none := by
  decide +kernel

end Search
