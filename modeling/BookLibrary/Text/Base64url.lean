import BookLibrary.Text.Bytes

/-!
# Bytes as base64url

Three bytes are four letters, without padding at the end. Reading takes the letters of
either alphabet and passes over the rest, so many texts are read as the same bytes; one of
them is what the bytes are written as.
-/

namespace Base64url

/-- `/[A-Za-z0-9_-]/` -/
def isLetter (c : Char) : Bool :=
  c.isUpper || c.isLower || c.isDigit || c = '_' || c = '-'

def letter (sextet : ℕ) : Char :=
  if sextet < 26 then Char.ofNat (sextet + 65)
  else if sextet < 52 then Char.ofNat (sextet + 71)
  else if sextet < 62 then Char.ofNat (sextet - 4)
  else if sextet = 62 then '-'
  else '_'

/-- The letters of both alphabets. -/
def sextet (c : Char) : Option ℕ :=
  if c.isUpper then some (c.toNat - 65)
  else if c.isLower then some (c.toNat - 71)
  else if c.isDigit then some (c.toNat + 4)
  else if c = '-' ∨ c = '+' then some 62
  else if c = '_' ∨ c = '/' then some 63
  else none

/-- `buffer.toString('base64url')` -/
def encode : List UInt8 → Text
  | a :: b :: c :: rest =>
    letter (a.toNat / 4) :: letter (a.toNat % 4 * 16 + b.toNat / 16) ::
      letter (b.toNat % 16 * 4 + c.toNat / 64) :: letter (c.toNat % 64) :: encode rest
  | [a, b] =>
    [letter (a.toNat / 4), letter (a.toNat % 4 * 16 + b.toNat / 16), letter (b.toNat % 16 * 4)]
  | [a] => [letter (a.toNat / 4), letter (a.toNat % 4 * 16)]
  | [] => []

def ofSextets : List ℕ → List UInt8
  | w :: x :: y :: z :: rest =>
    UInt8.ofNat (w * 4 + x / 16) :: UInt8.ofNat (x % 16 * 16 + y / 4) ::
      UInt8.ofNat (y % 4 * 64 + z) :: ofSextets rest
  | [w, x, y] => [UInt8.ofNat (w * 4 + x / 16), UInt8.ofNat (x % 16 * 16 + y / 4)]
  | [w, x] => [UInt8.ofNat (w * 4 + x / 16)]
  | _ => []

/-- `Buffer.from(text, 'base64url')` -/
def decode (text : Text) : List UInt8 := ofSextets (text.filterMap sextet)

theorem isLetter_letter {n : ℕ} (h : n < 64) : isLetter (letter n) = true := by
  revert h
  revert n
  decide

theorem sextet_letter {n : ℕ} (h : n < 64) : sextet (letter n) = some n := by
  revert h
  revert n
  decide

theorem isLetter_of_mem_encode {bytes : List UInt8} {c : Char} (h : c ∈ encode bytes) :
    isLetter c = true := by
  induction bytes using encode.induct with
  | case1 a b c' rest ih =>
    have ha := a.toNat_lt
    have hb := b.toNat_lt
    have hc := c'.toNat_lt
    simp only [encode, List.mem_cons] at h
    rcases h with rfl | rfl | rfl | rfl | h
    · exact isLetter_letter (by omega)
    · exact isLetter_letter (by omega)
    · exact isLetter_letter (by omega)
    · exact isLetter_letter (by omega)
    · exact ih h
  | case2 a b =>
    have ha := a.toNat_lt
    have hb := b.toNat_lt
    simp only [encode, List.mem_cons, List.not_mem_nil, or_false] at h
    rcases h with rfl | rfl | rfl
    · exact isLetter_letter (by omega)
    · exact isLetter_letter (by omega)
    · exact isLetter_letter (by omega)
  | case3 a =>
    have ha := a.toNat_lt
    simp only [encode, List.mem_cons, List.not_mem_nil, or_false] at h
    rcases h with rfl | rfl
    · exact isLetter_letter (by omega)
    · exact isLetter_letter (by omega)
  | case4 => cases h

/-- What bytes are written as is read as them. -/
@[simp]
theorem decode_encode (bytes : List UInt8) : decode (encode bytes) = bytes := by
  induction bytes using encode.induct with
  | case1 a b c rest ih =>
    have ha := a.toNat_lt
    have hb := b.toNat_lt
    have hc := c.toNat_lt
    rw [decode] at ih ⊢
    rw [encode, List.filterMap_cons_some (sextet_letter (by omega)),
      List.filterMap_cons_some (sextet_letter (by omega)),
      List.filterMap_cons_some (sextet_letter (by omega)),
      List.filterMap_cons_some (sextet_letter (by omega)), ofSextets, ih]
    -- each byte comes together again from its two parts
    have hfirst : a.toNat / 4 * 4 + (a.toNat % 4 * 16 + b.toNat / 16) / 16 = a.toNat := by omega
    have hsecond : (a.toNat % 4 * 16 + b.toNat / 16) % 16 * 16 +
        (b.toNat % 16 * 4 + c.toNat / 64) / 4 = b.toNat := by omega
    have hthird : (b.toNat % 16 * 4 + c.toNat / 64) % 4 * 64 + c.toNat % 64 = c.toNat := by omega
    rw [hfirst, hsecond, hthird]
    simp
  | case2 a b =>
    have ha := a.toNat_lt
    have hb := b.toNat_lt
    rw [decode, encode, List.filterMap_cons_some (sextet_letter (by omega)),
      List.filterMap_cons_some (sextet_letter (by omega)),
      List.filterMap_cons_some (sextet_letter (by omega)), List.filterMap_nil, ofSextets]
    have hfirst : a.toNat / 4 * 4 + (a.toNat % 4 * 16 + b.toNat / 16) / 16 = a.toNat := by omega
    have hsecond : (a.toNat % 4 * 16 + b.toNat / 16) % 16 * 16 + b.toNat % 16 * 4 / 4 =
        b.toNat := by omega
    rw [hfirst, hsecond]
    simp
  | case3 a =>
    have ha := a.toNat_lt
    rw [decode, encode, List.filterMap_cons_some (sextet_letter (by omega)),
      List.filterMap_cons_some (sextet_letter (by omega)), List.filterMap_nil, ofSextets]
    have hfirst : a.toNat / 4 * 4 + a.toNat % 4 * 16 / 16 = a.toNat := by omega
    rw [hfirst]
    simp
  | case4 => rfl

theorem encode_injective : Function.Injective encode :=
  Function.LeftInverse.injective decode_encode

theorem encode_eq_nil_iff {bytes : List UInt8} : encode bytes = [] ↔ bytes = [] := by
  constructor
  · intro h
    have hround := decode_encode bytes
    rw [h] at hround
    exact hround.symm
  · rintro rfl
    rfl

end Base64url
