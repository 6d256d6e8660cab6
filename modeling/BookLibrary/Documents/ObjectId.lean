import Mathlib.Data.List.Basic

/-!
# Document ids

An id is kept in its canonical text, so that ids are equal if their texts are.
-/

namespace Documents

def hexDigits : List Char := "0123456789abcdef".toList

/-- 24 lower-case hexadecimal digits. -/
def isCanonicalId (text : String) : Bool :=
  decide (text.toList.length = 24) && text.toList.all (hexDigits.contains ·)

abbrev ObjectId := { text : String // isCanonicalId text = true }

namespace ObjectId

/-- `new Types.ObjectId(value)` for a value of 24 hexadecimal digits of either case. -/
@[irreducible] def parse (value : String) : Option ObjectId :=
  let text := String.ofList (value.toList.map Char.toLower)
  if h : isCanonicalId text = true then some ⟨text, h⟩ else none

theorem toLower_of_mem_hexDigits : ∀ c ∈ hexDigits, c.toLower = c :=
  (List.map_inj_left (g := id)).mp rfl

/-- An id read back from its text is the id. -/
@[simp] theorem parse_text (id : ObjectId) : parse id.1 = some id := by
  obtain ⟨text, h⟩ := id
  have hlower : text.toList.map Char.toLower = text.toList := by
    rw [isCanonicalId, Bool.and_eq_true] at h
    have hfixed : ∀ c ∈ text.toList, c.toLower = id c := fun c hc =>
      toLower_of_mem_hexDigits c (by simpa using List.all_eq_true.mp h.2 c hc)
    rw [List.map_congr_left hfixed, List.map_id]
  have heq : String.ofList (text.toList.map Char.toLower) = text := by
    rw [hlower, String.ofList_toList]
  simp only [parse, heq]
  exact dif_pos h

end ObjectId

end Documents
