import BookLibrary.Text.Delimiting
import Mathlib.Data.List.Lex
import Mathlib.Data.List.Sort

/-!
# Code units

Strings are compared by their code units of UTF-16, and sorted so.
-/

namespace Text

/-- The code units of UTF-16 that a character is made of. -/
def codeUnits (c : Char) : List ℕ :=
  if c.toNat < 65536 then [c.toNat]
  else [55296 + (c.toNat - 65536) / 1024, 56320 + (c.toNat - 65536) % 1024]

theorem codeUnits_selfDelimiting : SelfDelimiting codeUnits := by
  intro c d rest rest' heq
  have hc := c.valid
  have hd := d.valid
  have heq : codeUnits c ++ rest = codeUnits d ++ rest' := heq
  have hval : ∀ c : Char, c.val.toNat = c.toNat := fun _ => rfl
  simp only [UInt32.isValidChar, Nat.isValidChar, hval] at hc hd
  rw [codeUnits, codeUnits] at heq
  suffices c.toNat = d.toNat ∧ rest = rest' from ⟨Char.toNat_inj.mp this.1, this.2⟩
  split at heq <;> split at heq <;>
    simp only [List.cons_append, List.nil_append, List.cons.injEq] at heq
  · exact heq
  · omega
  · omega
  · exact ⟨by omega, heq.2.2⟩

theorem codeUnits_ne_nil (c : Char) : codeUnits c ≠ [] := by
  rw [codeUnits]
  split <;> exact List.cons_ne_nil _ _

/-- One string is not after the other in the order of code units. -/
def notAfter (s t : String) : Bool :=
  decide (s.toList.flatMap codeUnits ≤ t.toList.flatMap codeUnits)

theorem notAfter_total (s t : String) : notAfter s t = true ∨ notAfter t s = true := by
  simp only [notAfter, decide_eq_true_eq]
  exact le_total _ _

theorem notAfter_trans {s t u : String} (h : notAfter s t = true) (h' : notAfter t u = true) :
    notAfter s u = true := by
  simp only [notAfter, decide_eq_true_eq] at h h' ⊢
  exact h.trans h'

theorem notAfter_antisymm {s t : String} (h : notAfter s t = true) (h' : notAfter t s = true) :
    s = t := by
  simp only [notAfter, decide_eq_true_eq] at h h'
  exact String.toList_inj.mp
    (codeUnits_selfDelimiting.flatMap_injective codeUnits_ne_nil (le_antisymm h h'))

end Text
