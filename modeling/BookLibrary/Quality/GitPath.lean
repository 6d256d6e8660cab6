import BookLibrary.Text.Quoting

/-!
# The paths of a diff

Git quotes a path with unusual characters in the style of C. The reader of the coverage gate
undoes the quoting and brings the path to the form in which the repository names its files.
-/

namespace Quality

open Text

/-- The mark of the byte order at the start of the bytes is not part of the text. -/
def textDecoder (bytes : List UInt8) : Option Text :=
  (ofUtf8 bytes).map fun text => if text.head? = some '\uFEFF' then text.tail else text

def escapes : Char → Option UInt8
  | '"' => some 0x22
  | '\\' => some 0x5c
  | 'a' => some 0x07
  | 'b' => some 0x08
  | 'f' => some 0x0c
  | 'n' => some 0x0a
  | 'r' => some 0x0d
  | 't' => some 0x09
  | 'v' => some 0x0b
  | _ => none

/-- The loop after the opening quote. A run of literal text is read a character at a time. -/
def decodeQuoted (bytes : List UInt8) : Text → Except String Text
  | [] => throw "invalid-git-path"
  | character :: rest =>
    if character = '"' then
      match textDecoder bytes with
      | some path => pure path
      | none => throw "invalid-git-path"
    else if character ≠ '\\' then decodeQuoted (bytes ++ String.utf8EncodeChar character) rest
    else
      match rest with
      | [] => throw "invalid-git-path"
      | escape :: rest =>
        match escapes escape with
        | some byte => decodeQuoted (bytes ++ [byte]) rest
        | none =>
          if isOctal escape then
            match rest with
            | second :: third :: rest =>
              if isOctal second && isOctal third then
                -- the byte is what is left of the number modulo 256
                decodeQuoted (bytes ++ [UInt8.ofNat (octalValue [escape, second, third])]) rest
              else throw "invalid-git-path"
            | _ => throw "invalid-git-path"
          else throw "invalid-git-path"

def decodeGitPath : Text → Except String Text
  | [] => pure []
  | character :: rest => if character = '"' then decodeQuoted [] rest else pure (character :: rest)

/-! ## What git writes -/

/-- The letters that git writes after a backslash, each with its byte. -/
def gitLetters : List (Char × UInt8) :=
  [('a', 0x07), ('b', 0x08), ('t', 0x09), ('n', 0x0a), ('v', 0x0b), ('f', 0x0c), ('r', 0x0d),
    ('"', 0x22), ('\\', 0x5c)]

def gitEscape (letter : Char) : Option UInt8 :=
  gitLetters.lookup letter

theorem escapes_eq_gitEscape : escapes = gitEscape := by
  funext letter
  unfold escapes
  split
  case h_10 =>
    have hnot : ∀ entry ∈ gitLetters, ¬ entry.1 = letter := by
      rintro entry hentry rfl
      simp only [gitLetters, List.mem_cons, List.not_mem_nil, or_false] at hentry
      rcases hentry with rfl | rfl | rfl | rfl | rfl | rfl | rfl | rfl | rfl <;> simp_all
    exact (List.lookup_eq_none_iff.mpr fun entry hentry =>
      bne_iff_ne.mpr fun h => hnot entry hentry h.symm).symm
  all_goals rfl

/-! ## Decoding -/

variable {acc bytes : List UInt8} {body rest path : Text}

/-- A path without the mark of the byte order. -/
def unmarked (path : Text) : Text :=
  if path.head? = some '\uFEFF' then path.tail else path

theorem textDecoder_utf8 (path : Text) : textDecoder (utf8 path) = some (unmarked path) := by
  rw [textDecoder, ofUtf8_utf8]
  rfl

@[simp]
theorem decodeQuoted_literal {character : Char} (hquote : character ≠ '"')
    (hslash : character ≠ '\\') :
    decodeQuoted acc (character :: rest) =
      decodeQuoted (acc ++ String.utf8EncodeChar character) rest := by
  rw [decodeQuoted.eq_def]
  simp only [hquote, hslash, ne_eq, not_false_eq_true, if_true, if_false]

@[simp]
theorem decodeQuoted_escape {escape : Char} {byte : UInt8} (h : escapes escape = some byte) :
    decodeQuoted acc ('\\' :: escape :: rest) = decodeQuoted (acc ++ [byte]) rest := by
  rw [decodeQuoted.eq_def]
  simp only [h]
  rfl

@[simp]
theorem decodeQuoted_octal {first second third : Char} (hnone : escapes first = none)
    (hfirst : isOctal first = true) (hsecond : isOctal second = true)
    (hthird : isOctal third = true) :
    decodeQuoted acc ('\\' :: first :: second :: third :: rest) =
      decodeQuoted (acc ++ [UInt8.ofNat (octalValue [first, second, third])]) rest := by
  rw [decodeQuoted.eq_def]
  simp only [hnone, hfirst, hsecond, hthird]
  rfl

/-- What is read is added to the bytes, octal numbers up to `\777` among it. -/
theorem decodeQuoted_reads (h : Reads escapes 512 body bytes) :
    decodeQuoted acc (body ++ rest) = decodeQuoted (acc ++ bytes) rest := by
  induction h generalizing acc with
  | nil => rw [List.nil_append, List.append_nil]
  | literal hquote hslash _ ih =>
    rw [List.cons_append, decodeQuoted_literal hquote hslash, ih, List.append_assoc]
  | escape hletter _ ih =>
    rw [List.cons_append, List.cons_append, decodeQuoted_escape hletter, ih, List.append_assoc,
      List.singleton_append]
  | octal hnone hfirst hsecond hthird _ _ ih =>
    rw [List.cons_append, List.cons_append, List.cons_append, List.cons_append,
      decodeQuoted_octal hnone hfirst hsecond hthird, ih, List.append_assoc,
      List.singleton_append]

/-- A text that is read up to a closing quote is decoded, whatever follows the quote. -/
theorem decodeQuoted_closed (h : Reads escapes 512 body (utf8 path)) (rest : Text) :
    decodeQuoted [] (body ++ '"' :: rest) = .ok (unmarked path) := by
  rw [decodeQuoted_reads h, List.nil_append, decodeQuoted.eq_def]
  simp only [if_true, textDecoder_utf8]
  rfl

theorem octalValue_lt {first second third : Char} (hfirst : isOctal first = true)
    (hsecond : isOctal second = true) (hthird : isOctal third = true) :
    octalValue [first, second, third] < 512 := by
  have hdigit : ∀ c : Char, isOctal c = true → c.toNat ≤ 55 := by
    intro c hc
    exact (Bool.and_eq_true_iff.mp hc).2 |> of_decide_eq_true
  have h₁ := hdigit first hfirst
  have h₂ := hdigit second hsecond
  have h₃ := hdigit third hthird
  simp only [octalValue, Nat.ofDigitChars_cons, Nat.ofDigitChars_nil]
  have hzero : '0'.toNat = 48 := rfl
  omega

/-- Whatever is decoded has been read up to a closing quote, and its bytes are valid. -/
theorem exists_reads_of_decodeQuoted (h : decodeQuoted acc body = .ok path) :
    ∃ read bytes tail text, body = read ++ '"' :: tail ∧ Reads escapes 512 read bytes ∧
      acc ++ bytes = utf8 text := by
  fun_induction decodeQuoted acc body with
  | case1 | case3 | case5 | case8 | case9 | case10 => cases h
  | case2 acc rest text htext =>
    obtain ⟨text, hvalid, -⟩ := Option.map_eq_some_iff.mp htext
    exact ⟨[], [], rest, text, rfl, .nil, by rw [List.append_nil, ofUtf8_eq_some_iff.mp hvalid]⟩
  | case4 acc character rest hquote hslash ih =>
    obtain ⟨read, bytes, tail, text, rfl, hread, hbytes⟩ := ih h
    exact ⟨_, _, tail, text, rfl, .literal hquote hslash hread, by
      rw [← List.append_assoc, hbytes]⟩
  | case6 acc character _ hslash escape rest byte hbyte ih =>
    obtain rfl := not_not.mp hslash
    obtain ⟨read, bytes, tail, text, rfl, hread, hbytes⟩ := ih h
    exact ⟨_, _, tail, text, rfl, .escape hbyte hread, by
      rw [← hbytes, List.append_assoc, List.singleton_append]⟩
  | case7 acc character _ hslash first hnone hfirst second third rest hmore ih =>
    obtain rfl := not_not.mp hslash
    obtain ⟨hsecond, hthird⟩ := Bool.and_eq_true_iff.mp hmore
    obtain ⟨read, bytes, tail, text, rfl, hread, hbytes⟩ := ih h
    exact ⟨_, _, tail, text, rfl, .octal hnone hfirst hsecond hthird
      (octalValue_lt hfirst hsecond hthird) hread, by
      rw [← hbytes, List.append_assoc, List.singleton_append]⟩

/-- Nothing else goes wrong. -/
theorem eq_of_decodeQuoted_error {message : String}
    (h : decodeQuoted acc body = .error message) : message = "invalid-git-path" := by
  fun_induction decodeQuoted acc body with
  | case2 => cases h
  | case1 | case3 | case5 | case8 | case9 | case10 => exact (Except.error.inj h).symm
  | case4 _ _ _ _ _ ih | case6 _ _ _ _ _ _ _ _ ih | case7 _ _ _ _ _ _ _ _ _ _ _ ih =>
    exact ih h

/-! ## Exactness -/

/-- What the decoder owes to a text that follows an opening quote: the path that is quoted
there, or an error if the text is malformed. -/
structure Decodes (body : Text) : Prop where
  undone : ∀ read path, body = read ++ ['"'] → Reads gitEscape 256 read (utf8 path) →
    decodeGitPath ('"' :: body) = .ok path
  rejected : Malformed gitEscape body → decodeGitPath ('"' :: body) = .error "invalid-git-path"

/-- The path that is quoted begins with the mark of the byte order. -/
def Marked (body : Text) : Prop :=
  ∃ read path, body = read ++ ['"'] ∧ Reads gitEscape 256 read (utf8 ('\uFEFF' :: path))

/-- The only faults of the text are octal numbers above `\377`, and modulo 256 its bytes are
valid. -/
def Overflows (body : Text) : Prop :=
  ∃ read text tail, body = read ++ '"' :: tail ∧ Reads gitEscape 512 read (utf8 text) ∧
    ∀ bytes, ¬ Reads gitEscape 256 read bytes

theorem decodeGitPath_quote : decodeGitPath ('"' :: body) = decodeQuoted [] body := by
  rw [decodeGitPath, if_pos rfl]

/-- Quoting is undone and what is malformed is rejected, but for the mark of the byte order
and for octal numbers that are no bytes. -/
theorem decodeGitPath_exact (body : Text) :
    Decodes body ↔ ¬ Marked body ∧ ¬ Overflows body := by
  constructor
  · rintro ⟨hundone, hrejected⟩
    refine ⟨?_, ?_⟩
    · rintro ⟨read, path, rfl, hread⟩
      have hclosed := decodeQuoted_closed (escapes_eq_gitEscape ▸ hread.mono (by decide)) []
      rw [← decodeGitPath_quote, hundone _ _ rfl hread] at hclosed
      exact List.cons_ne_self _ _ (Except.ok.inj hclosed)
    · rintro ⟨read, text, tail, rfl, hread, hover⟩
      have hclosed := decodeQuoted_closed (escapes_eq_gitEscape ▸ hread) tail
      rw [← decodeGitPath_quote, hrejected (hread.malformed_of_overflow hover)] at hclosed
      cases hclosed
  · rintro ⟨hmarked, hover⟩
    refine ⟨?_, fun hmalformed => ?_⟩
    · rintro read path rfl hread
      have hclosed := decodeQuoted_closed (escapes_eq_gitEscape ▸ hread.mono (by decide)) []
      have hunmarked : path.head? ≠ some '\uFEFF' := by
        intro hhead
        obtain ⟨path, rfl⟩ : ∃ rest, path = '\uFEFF' :: rest := List.head?_eq_some_iff.mp hhead
        exact hmarked ⟨read, path, rfl, hread⟩
      rw [decodeGitPath_quote, hclosed, unmarked, if_neg hunmarked]
    · rw [decodeGitPath_quote]
      cases h : decodeQuoted [] body with
      | error message => rw [eq_of_decodeQuoted_error h]
      | ok path =>
        obtain ⟨read, bytes, tail, text, rfl, hread, rfl⟩ := exists_reads_of_decodeQuoted h
        rw [escapes_eq_gitEscape] at hread
        refine absurd ⟨read, text, tail, rfl, hread, fun bytes hbytes => ?_⟩ hover
        obtain rfl := hread.bytes_eq hbytes
        exact hbytes.not_malformed hmalformed

/-- The path of the mark and an `x`, and a number that is no byte. -/
theorem decodeGitPath_inexact : ¬ Decodes ['\\', '3', '5', '7', '\\', '2', '7', '3', '\\', '2', '7',
      '7', 'x', '"'] ∧ ¬ Decodes ['\\', '4', '0', '0', '"'] := by
  refine ⟨fun h => ?_, fun h => ?_⟩
  · have hread : Reads gitEscape 256 ['\\', '3', '5', '7', '\\', '2', '7', '3', '\\', '2', '7', '7',
        'x'] (utf8 ['\uFEFF', 'x']) :=
      .octal rfl rfl rfl rfl (by decide) (.octal rfl rfl rfl rfl (by decide)
        (.octal rfl rfl rfl rfl (by decide) (.literal (by decide) (by decide) .nil)))
    have hclosed := decodeQuoted_closed (escapes_eq_gitEscape ▸ hread.mono (by decide)) []
    rw [← decodeGitPath_quote] at hclosed
    have hcontra := (h.undone _ _ rfl hread).symm.trans hclosed
    exact List.cons_ne_self _ _ (Except.ok.inj hcontra)
  · have hread : Reads escapes 512 ['\\', '4', '0', '0'] (utf8 ['\x00']) :=
      .octal rfl rfl rfl rfl (by decide) .nil
    have hclosed := decodeQuoted_closed hread []
    have hmalformed : Malformed gitEscape ['\\', '4', '0', '0', '"'] :=
      ⟨[], [], _, .nil, rfl, .largeOctal rfl rfl rfl rfl (by decide)⟩
    rw [← decodeGitPath_quote] at hclosed
    cases (h.rejected hmalformed).symm.trans hclosed

end Quality
