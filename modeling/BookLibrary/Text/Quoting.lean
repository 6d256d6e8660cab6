import BookLibrary.Text.Bytes
import Mathlib.Tactic.IntervalCases

/-!
# C-style quoting

A quoted text stands for bytes. A character other than the quote and the backslash stands for
its own bytes, a backslash and a letter of the table for the byte of the letter, and a
backslash and three octal digits for the byte of that number.
-/

namespace Text

def isOctal (c : Char) : Bool :=
  '0' ≤ c && c ≤ '7'

def octalValue (digits : Text) : ℕ :=
  Nat.ofDigitChars 8 digits 0

variable (escapes : Char → Option UInt8)

/-- What stands between the quotes and the bytes it stands for. Octal numbers are below the
limit and are taken modulo 256. -/
inductive Reads (limit : ℕ) : Text → List UInt8 → Prop
  | nil : Reads limit [] []
  | literal {c : Char} {body : Text} {bytes : List UInt8} :
    c ≠ '"' → c ≠ '\\' → Reads limit body bytes →
    Reads limit (c :: body) (String.utf8EncodeChar c ++ bytes)
  | escape {letter : Char} {byte : UInt8} {body : Text} {bytes : List UInt8} :
    escapes letter = some byte → Reads limit body bytes →
    Reads limit ('\\' :: letter :: body) (byte :: bytes)
  | octal {first second third : Char} {body : Text} {bytes : List UInt8} :
    escapes first = none → isOctal first = true → isOctal second = true → isOctal third = true →
    octalValue [first, second, third] < limit → Reads limit body bytes →
    Reads limit ('\\' :: first :: second :: third :: body)
      (UInt8.ofNat (octalValue [first, second, third]) :: bytes)

/-- What ends the reading of a quoted text with an error, after the bytes read so far: no
closing quote, a letter that escapes nothing, an octal number that is short or no byte, or
bytes that are not valid. -/
inductive Fault (bytes : List UInt8) : Text → Prop
  | unterminated : Fault bytes []
  | dangling : Fault bytes ['\\']
  | badEscape {letter : Char} {rest : Text} :
    escapes letter = none → isOctal letter = false → Fault bytes ('\\' :: letter :: rest)
  | shortOctal {first : Char} {rest : Text} :
    escapes first = none → isOctal first = true →
    (∀ second third rest', rest = second :: third :: rest' →
      (isOctal second && isOctal third) = false) →
    Fault bytes ('\\' :: first :: rest)
  | largeOctal {first second third : Char} {rest : Text} :
    escapes first = none → isOctal first = true → isOctal second = true → isOctal third = true →
    256 ≤ octalValue [first, second, third] →
    Fault bytes ('\\' :: first :: second :: third :: rest)
  | invalidUtf8 {rest : Text} : (∀ text, bytes ≠ utf8 text) → Fault bytes ('"' :: rest)

/-- A quoted text, after its opening quote, that goes wrong somewhere. -/
def Malformed (body : Text) : Prop :=
  ∃ read bytes rest, Reads escapes 256 read bytes ∧ body = read ++ rest ∧ Fault escapes bytes rest

variable {escapes} {limit : ℕ}

theorem Reads.mono {limit' : ℕ} {body : Text} {bytes : List UInt8}
    (h : Reads escapes limit body bytes) (hle : limit ≤ limit') :
    Reads escapes limit' body bytes := by
  induction h with
  | nil => exact .nil
  | literal hquote hslash _ ih => exact .literal hquote hslash ih
  | escape hletter _ ih => exact .escape hletter ih
  | octal hnone hfirst hsecond hthird hlt _ ih =>
    exact .octal hnone hfirst hsecond hthird (Nat.lt_of_lt_of_le hlt hle) ih

theorem Reads.append {body body' : Text} {bytes bytes' : List UInt8}
    (h : Reads escapes limit body bytes) (h' : Reads escapes limit body' bytes') :
    Reads escapes limit (body ++ body') (bytes ++ bytes') := by
  induction h with
  | nil => exact h'
  | literal hquote hslash _ ih =>
    rw [List.append_assoc]
    exact .literal hquote hslash ih
  | escape hletter _ ih => exact .escape hletter ih
  | octal hnone hfirst hsecond hthird hlt _ ih => exact .octal hnone hfirst hsecond hthird hlt ih

/-- Nothing is read where a fault stands, except the end of a text whose bytes are invalid. -/
theorem Fault.stuck {body rest tail : Text} {bytes bytes' : List UInt8}
    (h : Fault escapes bytes' rest) (hbody : Reads escapes 256 body bytes)
    (heq : body ++ '"' :: tail = rest) : body = [] := by
  cases hbody with
  | nil => rfl
  | literal hquote hslash =>
    cases h with
    | unterminated => cases heq
    | invalidUtf8 => exact absurd (List.cons.inj heq).1 hquote
    | dangling | badEscape | shortOctal | largeOctal =>
      exact absurd (List.cons.inj heq).1 hslash
  | escape hletter =>
    cases h with
    | unterminated | dangling | invalidUtf8 => cases heq
    | badEscape hnone | shortOctal hnone | largeOctal hnone =>
      obtain ⟨rfl, -⟩ := List.cons.inj (List.cons.inj heq).2
      rw [hletter] at hnone
      cases hnone
  | octal hnone hfirst hsecond hthird hlt =>
    cases h with
    | unterminated | dangling | invalidUtf8 => cases heq
    | badEscape _ hoctal =>
      obtain ⟨rfl, -⟩ := List.cons.inj (List.cons.inj heq).2
      rw [hfirst] at hoctal
      cases hoctal
    | shortOctal _ _ hshort =>
      have hdigits := hshort _ _ _ (List.cons.inj (List.cons.inj heq).2).2.symm
      rw [hsecond, hthird] at hdigits
      cases hdigits
    | largeOctal _ _ _ _ hlarge =>
      obtain ⟨rfl, hthree⟩ := List.cons.inj (List.cons.inj heq).2
      obtain ⟨rfl, htwo⟩ := List.cons.inj hthree
      obtain ⟨rfl, -⟩ := List.cons.inj htwo
      exact absurd hlt (Nat.not_lt.mpr hlarge)

/-- A text is read in one way: what is read up to a closing quote goes as far as what is read
up to a fault. -/
theorem Reads.unique {body read rest tail : Text} {bytes bytes' fault : List UInt8}
    (h : Reads escapes 256 read bytes') (hbody : Reads escapes 256 body bytes)
    (heq : body ++ '"' :: tail = read ++ rest) (hfault : Fault escapes fault rest) :
    bytes = bytes' ∧ rest = '"' :: tail := by
  induction h generalizing body bytes with
  | nil =>
    obtain rfl := hfault.stuck hbody heq
    cases hbody
    exact ⟨rfl, heq.symm⟩
  | literal hquote hslash _ ih =>
    cases hbody with
    | nil => exact absurd (List.cons.inj heq).1.symm hquote
    | literal _ _ hrest =>
      obtain ⟨rfl, htail⟩ := List.cons.inj heq
      obtain ⟨rfl, hr⟩ := ih hrest htail
      exact ⟨rfl, hr⟩
    | escape | octal => exact absurd (List.cons.inj heq).1.symm hslash
  | escape hletter _ ih =>
    cases hbody with
    | nil => exact absurd (List.cons.inj heq).1 (by decide)
    | literal _ hslash => exact absurd (List.cons.inj heq).1 hslash
    | escape hletter' hrest =>
      obtain ⟨rfl, htail⟩ := List.cons.inj (List.cons.inj heq).2
      obtain ⟨rfl, hr⟩ := ih hrest htail
      rw [hletter] at hletter'
      exact ⟨by rw [Option.some.inj hletter'], hr⟩
    | octal hnone =>
      obtain ⟨rfl, -⟩ := List.cons.inj (List.cons.inj heq).2
      rw [hletter] at hnone
      cases hnone
  | octal hnone _ _ _ _ _ ih =>
    cases hbody with
    | nil => exact absurd (List.cons.inj heq).1 (by decide)
    | literal _ hslash => exact absurd (List.cons.inj heq).1 hslash
    | escape hletter =>
      obtain ⟨rfl, -⟩ := List.cons.inj (List.cons.inj heq).2
      rw [hletter] at hnone
      cases hnone
    | octal _ _ _ _ _ hrest =>
      obtain ⟨rfl, hthree⟩ := List.cons.inj (List.cons.inj heq).2
      obtain ⟨rfl, htwo⟩ := List.cons.inj hthree
      obtain ⟨rfl, htail⟩ := List.cons.inj htwo
      obtain ⟨rfl, hr⟩ := ih hrest htail
      exact ⟨rfl, hr⟩

/-- A text stands for the same bytes under every limit. -/
theorem Reads.bytes_eq {limit' : ℕ} {body : Text} {bytes bytes' : List UInt8}
    (h : Reads escapes limit body bytes) (h' : Reads escapes limit' body bytes') :
    bytes = bytes' := by
  induction h generalizing bytes' with
  | nil => cases h'; rfl
  | literal hquote hslash _ ih =>
    cases h' with
    | literal _ _ hrest => rw [ih hrest]
    | escape | octal => exact absurd rfl hslash
  | escape hletter _ ih =>
    cases h' with
    | literal _ hslash => exact absurd rfl hslash
    | escape hletter' hrest => rw [ih hrest, Option.some.inj (hletter.symm.trans hletter')]
    | octal hnone => rw [hletter] at hnone; cases hnone
  | octal hnone _ _ _ _ _ ih =>
    cases h' with
    | literal _ hslash => exact absurd rfl hslash
    | escape hletter => rw [hletter] at hnone; cases hnone
    | octal _ _ _ _ _ hrest => rw [ih hrest]

/-- A text that is read up to a closing quote is malformed only if its bytes are not valid. -/
theorem Reads.not_malformed {body tail text : Text}
    (h : Reads escapes 256 body (utf8 text)) : ¬ Malformed escapes (body ++ '"' :: tail) := by
  rintro ⟨read, bytes, rest, hread, heq, hfault⟩
  obtain ⟨rfl, rfl⟩ := hread.unique h heq hfault
  cases hfault with
  | invalidUtf8 hinvalid => exact hinvalid _ rfl

/-- A text that is read only past the limit of a byte has a fault where an octal number is no
byte, whatever follows the text. -/
theorem Reads.overflow {body : Text} {bytes : List UInt8} (h : Reads escapes 512 body bytes)
    (hover : ∀ bytes, ¬ Reads escapes 256 body bytes) :
    ∃ read bytes' rest, Reads escapes 256 read bytes' ∧ body = read ++ rest ∧
      ∀ fault tail, Fault escapes fault (rest ++ tail) := by
  induction h with
  | nil => exact absurd .nil (hover [])
  | literal hquote hslash _ ih =>
    obtain ⟨read, bytes, rest, hread, rfl, hfault⟩ :=
      ih fun bytes hbytes => hover _ (.literal hquote hslash hbytes)
    exact ⟨_, _, rest, .literal hquote hslash hread, rfl, hfault⟩
  | escape hletter _ ih =>
    obtain ⟨read, bytes, rest, hread, rfl, hfault⟩ :=
      ih fun bytes hbytes => hover _ (.escape hletter hbytes)
    exact ⟨_, _, rest, .escape hletter hread, rfl, hfault⟩
  | @octal first second third _ _ hnone hfirst hsecond hthird _ _ ih =>
    by_cases hlt : octalValue [first, second, third] < 256
    · obtain ⟨read, bytes, rest, hread, rfl, hfault⟩ :=
        ih fun bytes hbytes => hover _ (.octal hnone hfirst hsecond hthird hlt hbytes)
      exact ⟨_, _, rest, .octal hnone hfirst hsecond hthird hlt hread, rfl, hfault⟩
    · exact ⟨[], [], _, .nil, rfl, fun _ _ =>
        .largeOctal hnone hfirst hsecond hthird (Nat.not_lt.mp hlt)⟩

theorem Reads.malformed_of_overflow {body tail : Text} {bytes : List UInt8}
    (h : Reads escapes 512 body bytes) (hover : ∀ bytes, ¬ Reads escapes 256 body bytes) :
    Malformed escapes (body ++ tail) := by
  obtain ⟨read, bytes', rest, hread, rfl, hfault⟩ := h.overflow hover
  exact ⟨read, bytes', rest ++ tail, hread, List.append_assoc _ _ _, hfault _ _⟩

/-! ## Writing -/

section Writing

variable (letterOf : UInt8 → Option Char) (mustQuote : Char → Bool)

def octalDigits (byte : UInt8) : Text :=
  [(byte.toNat / 64).digitChar, (byte.toNat / 8 % 8).digitChar, (byte.toNat % 8).digitChar]

/-- A byte after a backslash, by its letter if it has one. -/
def quoteByte (byte : UInt8) : Text :=
  match letterOf byte with
  | some letter => ['\\', letter]
  | none => '\\' :: octalDigits byte

/-- The text with its characters as they are or byte by byte. -/
def quote (text : Text) : Text :=
  text.flatMap fun c =>
    if mustQuote c then (String.utf8EncodeChar c).flatMap (quoteByte letterOf) else [c]

theorem isOctal_digitChar {n : ℕ} (h : n < 8) : isOctal n.digitChar = true := by
  interval_cases n <;> rfl

theorem octalValue_octalDigits (byte : UInt8) : octalValue (octalDigits byte) = byte.toNat := by
  have hbyte := byte.toNat_lt
  rw [octalValue, octalDigits, Nat.ofDigitChars_cons_digitChar_of_lt_ten (by omega),
    Nat.ofDigitChars_cons_digitChar_of_lt_ten (by omega),
    Nat.ofDigitChars_cons_digitChar_of_lt_ten (by omega), Nat.ofDigitChars_nil]
  omega

variable {letterOf mustQuote}

theorem reads_quoteByte (hletter : ∀ byte letter, letterOf byte = some letter →
      escapes letter = some byte)
    (hoctal : ∀ c, isOctal c = true → escapes c = none) (byte : UInt8) :
    Reads escapes 256 (quoteByte letterOf byte) [byte] := by
  have hbyte := byte.toNat_lt
  rw [quoteByte]
  cases h : letterOf byte with
  | some letter => exact .escape (hletter _ _ h) .nil
  | none =>
    have hfirst := isOctal_digitChar (n := byte.toNat / 64) (by omega)
    have hsecond := isOctal_digitChar (n := byte.toNat / 8 % 8) (by omega)
    have hthird := isOctal_digitChar (n := byte.toNat % 8) (by omega)
    have hvalue := octalValue_octalDigits byte
    have hlt : octalValue (octalDigits byte) < 256 := by omega
    have hread := Reads.octal (hoctal _ hfirst) hfirst hsecond hthird hlt .nil
    rw [← octalDigits, hvalue, UInt8.ofNat_toNat] at hread
    exact hread

/-- What is written quoted is read back. -/
theorem reads_quote (hletter : ∀ byte letter, letterOf byte = some letter →
      escapes letter = some byte)
    (hoctal : ∀ c, isOctal c = true → escapes c = none)
    (hmust : mustQuote '"' = true ∧ mustQuote '\\' = true) (text : Text) :
    Reads escapes 256 (quote letterOf mustQuote text) (utf8 text) := by
  have hbytes : ∀ bytes : List UInt8,
      Reads escapes 256 (bytes.flatMap (quoteByte letterOf)) bytes := by
    intro bytes
    induction bytes with
    | nil => exact .nil
    | cons byte bytes ih => exact (reads_quoteByte hletter hoctal byte).append ih
  induction text with
  | nil => exact .nil
  | cons c text ih =>
    rw [quote, List.flatMap_cons, utf8_cons]
    by_cases hc : mustQuote c = true
    · rw [if_pos hc]
      exact (hbytes _).append ih
    · rw [if_neg hc]
      refine .literal ?_ ?_ ih
      · rintro rfl
        exact hc hmust.1
      · rintro rfl
        exact hc hmust.2

end Writing

end Text
