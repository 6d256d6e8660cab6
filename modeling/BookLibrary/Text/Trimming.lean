import BookLibrary.Text.Bytes
import Mathlib.Data.List.DropRight

/-!
# Trimming

What is left of a text without the white space around it.
-/

namespace Text

/-- The white space and the line terminators of the language. -/
def isWhite (c : Char) : Bool :=
  c ∈ ['\t', '\n', '\x0b', '\x0c', '\r', ' ', '\u00a0', '\u1680', '\u2000', '\u2001', '\u2002',
    '\u2003', '\u2004', '\u2005', '\u2006', '\u2007', '\u2008', '\u2009', '\u200a', '\u2028',
    '\u2029', '\u202f', '\u205f', '\u3000', '\ufeff']

def trim (text : Text) : Text :=
  (text.dropWhile isWhite).rdropWhile isWhite

/-- The text with white space around it. -/
def Padded (text padded : Text) : Prop :=
  ∃ before after, before.all isWhite = true ∧ after.all isWhite = true ∧
    padded = before ++ text ++ after

theorem padded_trim (text : Text) : Padded (trim text) text := by
  refine ⟨text.takeWhile isWhite, (text.dropWhile isWhite).rtakeWhile isWhite, ?_, ?_, ?_⟩
  · exact List.all_takeWhile
  · exact List.all_eq_true.mpr fun c hc => List.mem_rtakeWhile_imp hc
  · rw [trim, List.append_assoc, List.rdropWhile_append_rtakeWhile, List.takeWhile_append_dropWhile]

theorem rdropWhile_append_white {text after : Text} (h : after.all isWhite = true) :
    (text ++ after).rdropWhile isWhite = text.rdropWhile isWhite := by
  rw [List.rdropWhile, List.rdropWhile, List.reverse_append, List.dropWhile_append_of_pos]
  exact fun c hc => List.all_eq_true.mp h c (List.mem_reverse.mp hc)

theorem trim_padded {text padded : Text} (h : Padded text padded) : trim padded = trim text := by
  obtain ⟨before, after, hbefore, hafter, rfl⟩ := h
  rw [trim, List.append_assoc, List.dropWhile_append_of_pos (List.all_eq_true.mp hbefore),
    List.dropWhile_append]
  cases hempty : (text.dropWhile isWhite).isEmpty with
  | true =>
    have htext : text.dropWhile isWhite = [] := List.isEmpty_iff.mp hempty
    have hdrop : after.dropWhile isWhite = [] :=
      List.dropWhile_eq_nil_iff.mpr (List.all_eq_true.mp hafter)
    simp [trim, htext, hdrop]
  | false =>
    rw [if_neg Bool.false_ne_true, rdropWhile_append_white hafter, trim]

theorem trim_trim (text : Text) : trim (trim text) = trim text :=
  (trim_padded (padded_trim text)).symm

end Text
