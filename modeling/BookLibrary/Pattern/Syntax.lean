import Mathlib.Data.List.Basic

/-!
# The grammar of patterns

The regular expressions of ECMAScript without the `u` and `v` flags, in the grammar that web
browsers and Node.js read, named groups and inline modifiers left out. A pattern is a list of
16-bit code units. It is cut into tokens from the left, and the tokens are put together with
a stack of the groups that are still open.
-/

namespace Pattern

abbrev CodeUnit := UInt16

/-- The character of a unit. A surrogate reads as NUL, which no rule of the grammar names. -/
def charOf (unit : CodeUnit) : Char :=
  Char.ofNat unit.toNat

def unitOf (c : Char) : CodeUnit :=
  c.toNat.toUInt16

/-- A part of a class, negated when it is written as a capital. -/
inductive ClassItem
  | single (unit : CodeUnit)
  | range (first last : CodeUnit)
  | digit (negated : Bool)
  | space (negated : Bool)
  | word (negated : Bool)
  deriving DecidableEq

inductive Node
  | empty
  | char (unit : CodeUnit)
  | any
  | oneOf (items : List ClassItem) (inverted : Bool)
  | start
  | finish
  | boundary (negated : Bool)
  | backReference (group : ℕ)
  | sequence (first second : Node)
  | choice (first second : Node)
  | capture (group : ℕ) (body : Node)
  | look (behind negated : Bool) (body : Node)
  | iterate (body : Node) (min : ℕ) (max : Option ℕ) (greedy : Bool)
  deriving DecidableEq

/-- What a parenthesis opens. -/
inductive Opening
  | plain
  | capture
  | look (behind negated : Bool)
  deriving DecidableEq

inductive Token
  | opening (kind : Opening)
  | closing
  | bar
  | term (node : Node) (quantifiable : Bool)
  | quantifier (min : ℕ) (max : Option ℕ) (greedy : Bool)
  deriving DecidableEq

/-! ## Numbers -/

def isDecimal (unit : CodeUnit) : Bool :=
  (charOf unit).isDigit

def isOctal (unit : CodeUnit) : Bool :=
  isDecimal unit && decide (charOf unit < '8')

def isHexadecimal (unit : CodeUnit) : Bool :=
  isDecimal unit || ('a' ≤ (charOf unit).toLower && (charOf unit).toLower ≤ 'f')

def digitValue (unit : CodeUnit) : ℕ :=
  if isDecimal unit then (charOf unit).toNat - '0'.toNat
  else (charOf unit).toLower.toNat - 'a'.toNat + 10

def numberOf (base : ℕ) (digits : List CodeUnit) : ℕ :=
  digits.foldl (fun value digit => base * value + digitValue digit) 0

/-- A run of decimal digits. -/
def decimal (units : List CodeUnit) : Option (ℕ × List CodeUnit) :=
  match units.takeWhile isDecimal with
  | [] => none
  | digits => some (numberOf 10 digits, units.drop digits.length)

/-- As many hexadecimal digits as asked for. -/
def hexadecimal (count : ℕ) (units : List CodeUnit) : Option (CodeUnit × List CodeUnit) :=
  let digits := units.take count
  if digits.length = count ∧ digits.all isHexadecimal then
    some ((numberOf 16 digits).toUInt16, units.drop count)
  else none

/-- At most three octal digits, and no more than a byte holds. -/
def octal (units : List CodeUnit) : Option (CodeUnit × List CodeUnit) :=
  match (units.takeWhile isOctal).take 3 with
  | [] => none
  | digits =>
    if numberOf 8 digits < 256 then
      some ((numberOf 8 digits).toUInt16, units.drop digits.length)
    else some ((numberOf 8 (digits.take 2)).toUInt16, units.drop 2)

/-! ## Escapes -/

/-- The unit after a backslash, which stands for itself when nothing else is meant. In a
class a control letter may be a digit or an underscore too. -/
def characterEscape (inClass : Bool) : List CodeUnit → Option (CodeUnit × List CodeUnit)
  | [] => none
  | unit :: rest =>
    match charOf unit with
    | 'f' => some (unitOf '\x0c', rest)
    | 'n' => some (unitOf '\n', rest)
    | 'r' => some (unitOf '\r', rest)
    | 't' => some (unitOf '\t', rest)
    | 'v' => some (unitOf '\x0b', rest)
    | 'x' => hexadecimal 2 rest <|> some (unit, rest)
    | 'u' => hexadecimal 4 rest <|> some (unit, rest)
    | 'c' =>
      -- without a control letter the backslash is the unit, and the `c` is read again
      match rest with
      | [] => some (unitOf '\\', unit :: rest)
      | letter :: rest' =>
        if (charOf letter).isAlpha || inClass && (isDecimal letter || charOf letter == '_') then
          some (letter % 32, rest')
        else some (unitOf '\\', unit :: rest)
    | _ => octal (unit :: rest) <|> some (unit, rest)

/-- The classes that have a letter of their own. -/
def classEscape : Char → Option ClassItem
  | 'd' => some (.digit false)
  | 'D' => some (.digit true)
  | 's' => some (.space false)
  | 'S' => some (.space true)
  | 'w' => some (.word false)
  | 'W' => some (.word true)
  | _ => none

/-- What a backslash starts outside a class. -/
def escape (groups : ℕ) : List CodeUnit → Option (Token × List CodeUnit)
  | [] => none
  | unit :: rest =>
    match charOf unit with
    | 'b' => some (.term (.boundary false) false, rest)
    | 'B' => some (.term (.boundary true) false, rest)
    | c =>
      match classEscape c with
      | some item => some (.term (.oneOf [item] false) true, rest)
      | none =>
        let character := (characterEscape false (unit :: rest)).map fun found =>
          (Token.term (.char found.1) true, found.2)
        match decimal (unit :: rest) with
        | none => character
        | some (group, rest') =>
          -- a number that no group has is an octal one
          if c ≠ '0' ∧ group ≤ groups then some (.term (.backReference group) true, rest')
          else character

/-! ## Classes -/

def classAtom : List CodeUnit → Option (ClassItem × List CodeUnit)
  | [] => none
  | unit :: rest =>
    if charOf unit ≠ '\\' then some (.single unit, rest)
    else
      match rest with
      | [] => none
      | escaped :: rest' =>
        match classEscape (charOf escaped) with
        | some item => some (item, rest')
        | none =>
          if charOf escaped = 'b' then some (.single (unitOf '\x08'), rest')
          else (characterEscape true rest).map fun found => (.single found.1, found.2)

/-- The parts of a class up to its end. Each takes a unit at least, so the length of the text
is fuel enough. -/
def classItems : ℕ → List CodeUnit → Option (List ClassItem × List CodeUnit)
  | 0, _ => none
  | _ + 1, [] => none
  | fuel + 1, unit :: rest =>
    if charOf unit = ']' then some ([], rest)
    else do
      let (item, rest) ← classAtom (unit :: rest)
      match rest with
      | dash :: next :: rest' =>
        if charOf dash = '-' ∧ charOf next ≠ ']' then do
          let (last, rest) ← classAtom (next :: rest')
          let (items, rest) ← classItems fuel rest
          match item, last with
          | .single first, .single last =>
            if first ≤ last then some (.range first last :: items, rest) else none
          -- a class at either end of a dash makes the dash a unit of its own
          | _, _ => some (item :: .single dash :: last :: items, rest)
        else do
          let (items, rest) ← classItems fuel rest
          return (item :: items, rest)
      | _ => do
        let (items, rest) ← classItems fuel rest
        return (item :: items, rest)

/-- A class, after the bracket that opens it. -/
def characterClass (units : List CodeUnit) : Option (Token × List CodeUnit) := do
  let inverted := units.head?.map charOf == some '^'
  let units := if inverted then units.tail else units
  let (items, rest) ← classItems (units.length + 1) units
  return (.term (.oneOf items inverted) true, rest)

/-! ## Tokens -/

/-- A quantifier with the mark of a lazy one, if it follows. -/
def quantifier (min : ℕ) (max : Option ℕ) : List CodeUnit → Option (Token × List CodeUnit)
  | [] => some (.quantifier min max true, [])
  | unit :: rest =>
    if charOf unit = '?' then some (.quantifier min max false, rest)
    else some (.quantifier min max true, unit :: rest)

/-- The bounds of a quantifier, after the brace that opens them. -/
def bounds (units : List CodeUnit) : Option ((ℕ × Option ℕ) × List CodeUnit) := do
  let (min, rest) ← decimal units
  match rest with
  | [] => none
  | unit :: rest =>
    if charOf unit = '}' then some ((min, some min), rest)
    else if charOf unit = ',' then
      match rest with
      | [] => none
      | unit :: rest' =>
        if charOf unit = '}' then some ((min, none), rest')
        else do
          let (max, rest) ← decimal rest
          if rest.head?.map charOf = some '}' then some ((min, some max), rest.tail) else none
    else none

/-- What a parenthesis opens, by what follows it. -/
def opening (units : List CodeUnit) : Option (Token × List CodeUnit) :=
  let after (mark : List Char) := mark.isPrefixOf (units.map charOf)
  if after ['?', ':'] then some (.opening .plain, units.drop 2)
  else if after ['?', '='] then some (.opening (.look false false), units.drop 2)
  else if after ['?', '!'] then some (.opening (.look false true), units.drop 2)
  else if after ['?', '<', '='] then some (.opening (.look true false), units.drop 3)
  else if after ['?', '<', '!'] then some (.opening (.look true true), units.drop 3)
  else if after ['?'] then none
  else some (.opening .capture, units)

/-- The next token of a pattern in which so many groups capture. -/
def token (groups : ℕ) : List CodeUnit → Option (Token × List CodeUnit)
  | [] => none
  | unit :: rest =>
    match charOf unit with
    | '^' => some (.term .start false, rest)
    | '$' => some (.term .finish false, rest)
    | '.' => some (.term .any true, rest)
    | '|' => some (.bar, rest)
    | '(' => opening rest
    | ')' => some (.closing, rest)
    | '[' => characterClass rest
    | '*' => quantifier 0 none rest
    | '+' => quantifier 1 none rest
    | '?' => quantifier 0 (some 1) rest
    | '{' =>
      match bounds rest with
      | some ((min, max), rest) => if max.all (min ≤ ·) then quantifier min max rest else none
      -- a brace without bounds is a unit like others
      | none => some (.term (.char unit) true, rest)
    | '\\' => escape groups rest
    | _ => some (.term (.char unit) true, rest)

/-- All tokens of a pattern. Each takes a unit at least. -/
def tokens (groups : ℕ) : ℕ → List CodeUnit → Option (List Token)
  | _, [] => some []
  | 0, _ :: _ => none
  | fuel + 1, unit :: units => do
    let (head, rest) ← token groups (unit :: units)
    let tail ← tokens groups fuel rest
    return head :: tail

/-! ## Groups -/

/-- A group that is still open: its alternatives before the last bar, and the terms after it,
the last one first. -/
structure Frame where
  kind : Opening
  group : ℕ
  before : Option Node
  terms : List (Node × Bool)

def Frame.alternative (frame : Frame) : Node :=
  frame.terms.foldl (fun node term => .sequence term.1 node) .empty

/-- What the group matches. -/
def Frame.body (frame : Frame) : Node :=
  match frame.before with
  | none => frame.alternative
  | some before => .choice before frame.alternative

/-- The group as a term of the one around it. A lookbehind takes no quantifier. -/
def Frame.term (frame : Frame) : Node × Bool :=
  match frame.kind with
  | .plain => (frame.body, true)
  | .capture => (.capture frame.group frame.body, true)
  | .look behind negated => (.look behind negated frame.body, !behind)

def Frame.add (frame : Frame) (term : Node × Bool) : Frame :=
  { frame with terms := term :: frame.terms }

/-- The pattern of the tokens, after so many groups that capture. -/
def build (groups : ℕ) (around : List Frame) (frame : Frame) : List Token → Option Node
  | [] => if around.isEmpty then some frame.body else none
  | .term node quantifiable :: rest => build groups around (frame.add (node, quantifiable)) rest
  | .bar :: rest =>
    build groups around { frame with before := some frame.body, terms := [] } rest
  | .opening kind :: rest =>
    build (if kind = .capture then groups + 1 else groups) (frame :: around)
      ⟨kind, groups + 1, none, []⟩ rest
  | .closing :: rest =>
    match around with
    | [] => none
    | outer :: around => build groups around (outer.add frame.term) rest
  | .quantifier min max greedy :: rest =>
    match frame.terms with
    | (node, true) :: terms =>
      build groups around { frame with terms := (.iterate node min max greedy, false) :: terms } rest
    | _ => none

/-- The pattern that a text denotes, if it denotes one. The groups that capture are counted
in a first pass, since a back reference may precede its group. -/
def parse (pattern : List CodeUnit) : Option Node := do
  let counted ← tokens 0 pattern.length pattern
  let found ← tokens (counted.count (.opening .capture)) pattern.length pattern
  build 0 [] ⟨.plain, 0, none, []⟩ found

end Pattern
