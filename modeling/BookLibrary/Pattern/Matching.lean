import Mathlib.Algebra.Group.Nat.Defs
import BookLibrary.Pattern.Syntax

/-!
# Matching

A node maps a state to the states in which a match of it can end, in the order in which a
backtracking matcher tries them. Letter case is ignored by a function that brings units to
one case; the identity heeds case.
-/

namespace Pattern

/-- The place reached in the input and the text of each group that has matched. -/
structure State where
  position : ℕ
  captures : ℕ → Option (List CodeUnit)

/-! ## Units -/

def isSpace (unit : CodeUnit) : Bool :=
  [0x09, 0x0a, 0x0b, 0x0c, 0x0d, 0x20, 0xa0, 0x1680, 0x2028, 0x2029, 0x202f, 0x205f, 0x3000,
    0xfeff].contains unit.toNat || (0x2000 ≤ unit.toNat && unit.toNat ≤ 0x200a)

def isWord (unit : CodeUnit) : Bool :=
  (charOf unit).isAlphanum || charOf unit == '_'

def isLineTerminator (unit : CodeUnit) : Bool :=
  [0x0a, 0x0d, 0x2028, 0x2029].contains unit.toNat

def ClassItem.contains : ClassItem → CodeUnit → Bool
  | .single unit, candidate => candidate == unit
  | .range first last, candidate => decide (first ≤ candidate ∧ candidate ≤ last)
  | .digit negated, candidate => isDecimal candidate != negated
  | .space negated, candidate => isSpace candidate != negated
  | .word negated, candidate => isWord candidate != negated

section Results

variable (canonicalize : CodeUnit → CodeUnit) (input : List CodeUnit)

/-- Some unit of the class is the given one, letter case ignored. -/
def isOneOf (items : List ClassItem) (unit : CodeUnit) : Bool :=
  (List.range (2 ^ 16)).any fun code =>
    items.any (·.contains code.toUInt16) && canonicalize code.toUInt16 == canonicalize unit

/-- The unit that is read next, before the place in a lookbehind and after it elsewhere. -/
def next (behind : Bool) (state : State) : Option CodeUnit :=
  if behind then if state.position = 0 then none else input[state.position - 1]?
  else input[state.position]?

def State.advance (state : State) (behind : Bool) (count : ℕ) : State :=
  { state with position := if behind then state.position - count else state.position + count }

/-- A unit that passes the test is read. -/
def read (behind : Bool) (test : CodeUnit → Bool) (state : State) : List State :=
  match next input behind state with
  | none => []
  | some unit => if test unit then [state.advance behind 1] else []

def isWordAt (position : ℕ) : Bool :=
  (input[position]?).any isWord

/-- The place is between a word and something else, or at an end of the input by a word. -/
def isBoundary (position : ℕ) : Bool :=
  (position != 0 && isWordAt input (position - 1)) != isWordAt input position

/-- The text of a group again. A group that has not matched is empty. -/
def readAgain (behind : Bool) (text : Option (List CodeUnit)) (state : State) : List State :=
  let text := text.getD []
  let from' := if behind then state.position - text.length else state.position
  if behind ∧ state.position < text.length then []
  else if ((input.drop from').take text.length).map canonicalize = text.map canonicalize then
    [state.advance behind text.length]
  else []

/-- One iteration after the other, within the bounds. One that is not asked for has to read
something, so what is left of the input bounds their number. -/
def iterate (step : State → List State) (greedy : Bool) :
    ℕ → ℕ → Option ℕ → State → List State
  | 0, _, _, _ => []
  | fuel + 1, min, max, state =>
    if max = some 0 then [state]
    else
      let again := (step state).flatMap fun after =>
        if min = 0 ∧ after.position = state.position then []
        else iterate step greedy fuel (min - 1) (max.map (· - 1)) after
      if min ≠ 0 then again else if greedy then again ++ [state] else state :: again

/-- The groups that a node holds. -/
def Node.groups : Node → List ℕ
  | .sequence first second => first.groups ++ second.groups
  | .choice first second => first.groups ++ second.groups
  | .capture group body => group :: body.groups
  | .look _ _ body => body.groups
  | .iterate body _ _ _ => body.groups
  | _ => []

def State.forget (state : State) (groups : List ℕ) : State :=
  { state with captures := fun group =>
      if group ∈ groups then none else state.captures group }

def State.record (state : State) (group : ℕ) (text : List CodeUnit) : State :=
  { state with captures := fun other =>
      if other = group then some text else state.captures other }

/-- The input between two places, in either order. -/
def between (place place' : ℕ) : List CodeUnit :=
  (input.drop (min place place')).take (max place place' - min place place')

/-- The states in which a match can end. -/
def results : Node → (behind : Bool) → State → List State
  | .empty, _, state => [state]
  | .char unit, behind, state =>
    read input behind (fun found => canonicalize found == canonicalize unit) state
  | .any, behind, state => read input behind (fun found => !isLineTerminator found) state
  | .oneOf items inverted, behind, state =>
    read input behind (fun found => isOneOf canonicalize items found != inverted) state
  | .start, _, state => if state.position = 0 then [state] else []
  | .finish, _, state => if state.position = input.length then [state] else []
  | .boundary negated, _, state =>
    if isBoundary input state.position != negated then [state] else []
  | .backReference group, behind, state =>
    readAgain canonicalize input behind (state.captures group) state
  | .sequence first second, false, state =>
    (results first false state).flatMap (results second false)
  | .sequence first second, true, state =>
    (results second true state).flatMap (results first true)
  | .choice first second, behind, state =>
    results first behind state ++ results second behind state
  | .capture group body, behind, state =>
    (results body behind state).map fun after =>
      after.record group (between input state.position after.position)
  | .look behind negated body, _, state =>
    -- what a lookaround matches first is kept, and nothing else of it is tried
    match results body behind state with
    | [] => if negated then [state] else []
    | after :: _ => if negated then [] else [⟨state.position, after.captures⟩]
  | .iterate body min max greedy, behind, state =>
    iterate (fun state => results body behind (state.forget body.groups)) greedy
      (min + input.length + 1) min max state

/-- Whether the pattern matches somewhere in the input. -/
def test (node : Node) : Bool :=
  (List.range (input.length + 1)).any fun place =>
    !(results canonicalize input node false ⟨place, fun _ => none⟩).isEmpty

end Results

/-! ## Literals -/

/-- The node that matches the units one after the other. -/
def literal (units : List CodeUnit) : Node :=
  units.foldr (fun unit node => .sequence (.char unit) node) .empty

section Literals

variable {canonicalize : CodeUnit → CodeUnit} {input : List CodeUnit}

/-- A literal matches at a place exactly if the input goes on with its units, letter case
ignored. -/
theorem results_literal_ne_nil (units : List CodeUnit) (state : State) :
    results canonicalize input (literal units) false state ≠ [] ↔
      units.map canonicalize <+: (input.drop state.position).map canonicalize := by
  induction units generalizing state with
  | nil => simp [literal, results]
  | cons unit units ih =>
    rw [literal, List.foldr_cons, ← literal, results, results, read, next]
    cases hnext : input[state.position]? with
    | none =>
      have hend : input.drop state.position = [] :=
        List.drop_eq_nil_of_le (List.getElem?_eq_none_iff.mp hnext)
      simp [hend]
    | some found =>
      obtain ⟨hlt, hfound⟩ := List.getElem?_eq_some_iff.mp hnext
      have hdrop : input.drop state.position = found :: input.drop (state.position + 1) := by
        rw [List.drop_eq_getElem_cons hlt, hfound]
      have hrest := ih (state.advance false 1)
      rw [hdrop, List.map_cons, List.map_cons, List.cons_prefix_cons]
      by_cases h : canonicalize found = canonicalize unit
      · simpa [h, State.advance] using hrest
      · simp [h, Ne.symm h]

/-- A literal matches somewhere exactly if its units stand somewhere in the input. -/
theorem test_literal (units : List CodeUnit) :
    test canonicalize input (literal units) = true ↔
      units.map canonicalize <:+: input.map canonicalize := by
  have hplace : ∀ place,
      (!(results canonicalize input (literal units) false ⟨place, fun _ => none⟩).isEmpty) = true ↔
        units.map canonicalize <+: (input.map canonicalize).drop place := by
    intro place
    rw [← List.map_drop, Bool.not_eq_true', List.isEmpty_eq_false_iff]
    exact results_literal_ne_nil units _
  simp only [test, List.any_eq_true, List.mem_range, hplace]
  constructor
  · rintro ⟨place, -, hprefix⟩
    exact hprefix.isInfix.trans (List.drop_suffix _ _).isInfix
  · intro hinfix
    obtain ⟨before, after, heq⟩ := hinfix
    refine ⟨before.length, ?_, ?_⟩
    · have hlength := congrArg List.length heq
      simp only [List.length_append, List.length_map] at hlength
      omega
    · rw [← heq, List.append_assoc, List.drop_left]
      exact List.prefix_append _ _

end Literals

end Pattern
