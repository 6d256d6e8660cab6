import Mathlib.Data.List.Basic

/-!
# Texts and their bytes

A text is the list of its characters. Its bytes are those of UTF-8, and a list of bytes is
the bytes of one text at most.
-/

abbrev Text := List Char

namespace Text

def utf8 (text : Text) : List UInt8 :=
  text.flatMap String.utf8EncodeChar

/-- The text that the bytes are of, if they are valid. -/
def ofUtf8 (bytes : List UInt8) : Option Text :=
  bytes.toByteArray.utf8Decode?.map Array.toList

@[simp]
theorem utf8_nil : utf8 [] = [] := rfl

@[simp]
theorem utf8_cons (c : Char) (text : Text) :
    utf8 (c :: text) = String.utf8EncodeChar c ++ utf8 text := rfl

@[simp]
theorem utf8_append (text text' : Text) : utf8 (text ++ text') = utf8 text ++ utf8 text' :=
  List.flatMap_append

theorem toByteArray_utf8 (text : Text) : (utf8 text).toByteArray = text.utf8Encode := rfl

@[simp]
theorem ofUtf8_utf8 (text : Text) : ofUtf8 (utf8 text) = some text := by
  rw [ofUtf8, toByteArray_utf8, List.utf8Decode?_utf8Encode]
  rfl

theorem ofUtf8_eq_some_iff {bytes : List UInt8} {text : Text} :
    ofUtf8 bytes = some text ↔ bytes = utf8 text := by
  refine ⟨fun h => ?_, fun h => h ▸ ofUtf8_utf8 text⟩
  obtain ⟨chars, hchars, rfl⟩ := Option.map_eq_some_iff.mp h
  have hsome : bytes.toByteArray.utf8Decode?.isSome := by rw [hchars]; rfl
  have hbytes : chars.toList.utf8Encode = bytes.toByteArray := by
    have hget := ByteArray.utf8Encode_get_utf8Decode? (b := bytes.toByteArray) (h := hsome)
    rwa [Option.get_of_eq_some hsome hchars] at hget
  exact (List.toByteArray_inj.mp ((toByteArray_utf8 _).trans hbytes)).symm

theorem utf8_injective : Function.Injective utf8 := fun text text' h =>
  Option.some.inj ((ofUtf8_utf8 text).symm.trans (h ▸ ofUtf8_utf8 text'))

end Text
