import BookLibrary.Pattern.Syntax
import BookLibrary.Pattern.Matching

/-!
# Patterns that spell a text

A unit without a meaning in the grammar stands for itself, and so does a unit after a
backslash when it is no letter and no digit. A pattern made of such pieces denotes the
literal of the units they stand for.
-/

namespace Pattern

/-- The characters with a meaning in the grammar. -/
def syntaxCharacters : List Char :=
  ['^', '$', '\\', '.', '*', '+', '?', '(', ')', '[', ']', '{', '}', '|']

/-- A pattern that spells the units, each as it is or after a backslash. -/
inductive Spells : List CodeUnit → List CodeUnit → Prop
  | nil : Spells [] []
  | plain {unit : CodeUnit} {pattern units : List CodeUnit} :
    charOf unit ∉ syntaxCharacters → Spells pattern units → Spells (unit :: pattern) (unit :: units)
  | escaped {slash unit : CodeUnit} {pattern units : List CodeUnit} :
    charOf slash = '\\' → (charOf unit).isAlphanum = false → Spells pattern units →
    Spells (slash :: unit :: pattern) (unit :: units)

variable {groups : ℕ} {unit : CodeUnit} {rest : List CodeUnit}

theorem token_plain (h : charOf unit ∉ syntaxCharacters) :
    token groups (unit :: rest) = some (.term (.char unit) true, rest) := by
  simp only [syntaxCharacters, List.mem_cons, List.not_mem_nil, or_false, not_or] at h
  rw [token]
  split <;> simp_all

theorem classEscape_eq_none {c : Char} (h : c.isAlphanum = false) : classEscape c = none := by
  unfold classEscape
  split <;> first | rfl | exact absurd h (by decide)

theorem decimal_eq_none (h : (charOf unit).isAlphanum = false) :
    decimal (unit :: rest) = none := by
  have hdigit : isDecimal unit = false := (Bool.or_eq_false_iff.mp h).2
  rw [decimal, List.takeWhile_cons_of_neg (by simp [hdigit])]

theorem octal_eq_none (h : (charOf unit).isAlphanum = false) : octal (unit :: rest) = none := by
  have hdigit : isOctal unit = false := by
    rw [isOctal, isDecimal, (Bool.or_eq_false_iff.mp h).2, Bool.false_and]
  rw [octal, List.takeWhile_cons_of_neg (by simp [hdigit]), List.take_nil]

theorem charOf_ne (h : (charOf unit).isAlphanum = false) {c : Char} (hc : c.isAlphanum = true) :
    charOf unit ≠ c := by
  rintro rfl
  rw [hc] at h
  cases h

/-- An escaped unit that is no letter and no digit stands for itself. -/
theorem characterEscape_self {inClass : Bool} (h : (charOf unit).isAlphanum = false) :
    characterEscape inClass (unit :: rest) = some (unit, rest) := by
  simp only [characterEscape]
  split
  case h_9 => rw [octal_eq_none h]; rfl
  all_goals exact absurd ‹_› (charOf_ne h (by decide))

theorem token_escaped {slash : CodeUnit} (hslash : charOf slash = '\\')
    (h : (charOf unit).isAlphanum = false) :
    token groups (slash :: unit :: rest) = some (.term (.char unit) true, rest) := by
  rw [token]
  simp only [hslash]
  rw [escape]
  split
  · exact absurd ‹_› (charOf_ne h (by decide))
  · exact absurd ‹_› (charOf_ne h (by decide))
  · rw [classEscape_eq_none h, decimal_eq_none h, characterEscape_self h]
    rfl

theorem tokens_cons {fuel : ℕ} {head : Token} {tail : List Token} {left : List CodeUnit}
    (htoken : token groups (unit :: rest) = some (head, left))
    (hleft : tokens groups fuel left = some tail) :
    tokens groups (fuel + 1) (unit :: rest) = some (head :: tail) := by
  rw [tokens, htoken, Option.bind_eq_bind, Option.bind_some]
  simp only [hleft]
  rfl

theorem Spells.tokens_eq {pattern units : List CodeUnit} (h : Spells pattern units) {fuel : ℕ}
    (hfuel : pattern.length ≤ fuel) :
    tokens groups fuel pattern = some (units.map fun unit => .term (.char unit) true) := by
  induction h generalizing fuel with
  | nil => rw [tokens, List.map_nil]
  | plain hplain _ ih =>
    rw [List.length_cons] at hfuel
    obtain ⟨fuel, rfl⟩ := Nat.exists_eq_add_of_le' (Nat.one_le_of_lt hfuel)
    exact tokens_cons (token_plain hplain) (ih (by omega))
  | escaped hslash hunit _ ih =>
    rw [List.length_cons, List.length_cons] at hfuel
    obtain ⟨fuel, rfl⟩ := Nat.exists_eq_add_of_le' (Nat.one_le_of_lt hfuel)
    exact tokens_cons (token_escaped hslash hunit) (ih (by omega))

/-- The terms of an alternative stand in the order in which they were read. -/
theorem foldl_sequence (units : List CodeUnit) (terms : List (Node × Bool)) :
    ((units.map fun unit => (Node.char unit, true)).reverse ++ terms).foldl
        (fun node term => .sequence term.1 node) Node.empty =
      terms.foldl (fun node term => .sequence term.1 node) (literal units) := by
  rw [List.foldl_append, List.foldl_reverse, literal, List.foldr_map]

theorem build_units (units : List CodeUnit) (frame : Frame) :
    build groups [] frame (units.map fun unit => .term (.char unit) true) =
      some { frame with terms :=
        (units.map fun unit => (Node.char unit, true)).reverse ++ frame.terms }.body := by
  induction units generalizing frame with
  | nil => rfl
  | cons unit units ih =>
    rw [List.map_cons, build, ih, List.map_cons, List.reverse_cons, List.append_assoc]
    rfl

/-- A pattern that spells a text denotes its literal. -/
theorem Spells.parse_eq {pattern units : List CodeUnit} (h : Spells pattern units) :
    parse pattern = some (literal units) := by
  rw [parse, h.tokens_eq (Nat.le_refl _), Option.bind_eq_bind, Option.bind_some, h.tokens_eq (Nat.le_refl _),
    Option.bind_some, build_units]
  simp only [Frame.body, Frame.alternative]
  rw [foldl_sequence]
  rfl

end Pattern
