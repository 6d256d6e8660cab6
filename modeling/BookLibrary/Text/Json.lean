import BookLibrary.Text.Delimiting
import Mathlib.Tactic.IntervalCases

/-!
# Strings of JSON

A string of JSON stands between quotes. The quote, the backslash and the control characters
are escaped, and every other character stands for itself.
-/

namespace Text

/-- The letter of a two-character escape. -/
def jsonEscapeLetter (c : Char) : Option Char :=
  match c with
  | '"' => some '"'
  | '\\' => some '\\'
  | '\x08' => some 'b'
  | '\t' => some 't'
  | '\n' => some 'n'
  | '\x0c' => some 'f'
  | '\r' => some 'r'
  | _ => none

def jsonEscape (c : Char) : Text :=
  match jsonEscapeLetter c with
  | some letter => ['\\', letter]
  | none =>
    if c.toNat < 32 then
      ['\\', 'u', '0', '0', Nat.digitChar (c.toNat / 16), Nat.digitChar (c.toNat % 16)]
    else [c]

/-- What `JSON.stringify` makes of a string. -/
def jsonString (text : Text) : Text :=
  '"' :: (text.flatMap jsonEscape ++ ['"'])

def hexValue (digit : Char) : ℕ :=
  if digit.isDigit then digit.toNat - '0'.toNat else digit.toNat - 'a'.toNat + 10

/-- Reads one character of a string, escaped or not. -/
def readJsonChar : Text → Option (Char × Text)
  | [] => none
  | '\\' :: 'u' :: _ :: _ :: high :: low :: rest =>
    some (Char.ofNat (16 * hexValue high + hexValue low), rest)
  | '\\' :: 'b' :: rest => some ('\x08', rest)
  | '\\' :: 't' :: rest => some ('\t', rest)
  | '\\' :: 'n' :: rest => some ('\n', rest)
  | '\\' :: 'f' :: rest => some ('\x0c', rest)
  | '\\' :: 'r' :: rest => some ('\r', rest)
  | '\\' :: c :: rest => some (c, rest)
  | c :: rest => some (c, rest)

theorem jsonEscapeLetter_eq_some {c letter : Char} (h : jsonEscapeLetter c = some letter) :
    (c, letter) ∈ [('"', '"'), ('\\', '\\'), ('\x08', 'b'), ('\t', 't'), ('\n', 'n'),
      ('\x0c', 'f'), ('\r', 'r')] := by
  unfold jsonEscapeLetter at h
  split at h <;> cases h <;> decide

theorem jsonEscapeLetter_eq_none {c : Char} (h : jsonEscapeLetter c = none) :
    c ≠ '"' ∧ c ≠ '\\' := by
  constructor
  · rintro rfl
    cases h
  · rintro rfl
    cases h

theorem readJsonChar_self {c : Char} (h : c ≠ '\\') (rest : Text) :
    readJsonChar (c :: rest) = some (c, rest) := by
  unfold readJsonChar
  split <;> simp_all

/-- The control characters by their numbers. -/
theorem readJsonChar_control {n : ℕ} (h : n < 32) (rest : Text) :
    readJsonChar ('\\' :: 'u' :: '0' :: '0' :: Nat.digitChar (n / 16) ::
      Nat.digitChar (n % 16) :: rest) = some (Char.ofNat n, rest) := by
  interval_cases n <;> rfl

theorem readJsonChar_escape (c : Char) (rest : Text) :
    readJsonChar (jsonEscape c ++ rest) = some (c, rest) := by
  rw [jsonEscape]
  split
  next letter h =>
    have hmem := jsonEscapeLetter_eq_some h
    simp only [List.mem_cons, List.not_mem_nil, or_false, Prod.mk.injEq] at hmem
    rcases hmem with ⟨rfl, rfl⟩ | ⟨rfl, rfl⟩ | ⟨rfl, rfl⟩ | ⟨rfl, rfl⟩ | ⟨rfl, rfl⟩ | ⟨rfl, rfl⟩ |
      ⟨rfl, rfl⟩ <;> rfl
  next h =>
    by_cases hc : c.toNat < 32
    · rw [if_pos hc]
      have hread := readJsonChar_control hc rest
      rwa [Char.ofNat_toNat] at hread
    · rw [if_neg hc]
      exact readJsonChar_self (jsonEscapeLetter_eq_none h).2 rest

theorem jsonEscape_selfDelimiting : SelfDelimiting jsonEscape := by
  intro c d rest rest' heq
  have hread := readJsonChar_escape d rest'
  rw [← heq, readJsonChar_escape] at hread
  simpa using hread

theorem jsonEscape_shuns : Shuns '"' jsonEscape := by
  intro c
  rw [jsonEscape]
  split
  next letter _ => exact ⟨'\\', [letter], rfl, by decide⟩
  next h =>
    by_cases hc : c.toNat < 32
    · rw [if_pos hc]
      exact ⟨'\\', _, rfl, by decide⟩
    · rw [if_neg hc]
      exact ⟨c, [], rfl, (jsonEscapeLetter_eq_none h).1⟩

theorem jsonString_selfDelimiting : SelfDelimiting jsonString :=
  (jsonEscape_selfDelimiting.closed '"' jsonEscape_shuns).behind ['"']

end Text
