import BookLibrary.Text.Bytes
import Mathlib.Data.Nat.Notation

/-!
# Lines and numbers

A text is split at its line feeds, and a carriage return before one goes with it. Numbers are
written in decimal.
-/

namespace Text

/-- The pieces between the line breaks, the last one of which no break ends. -/
def splitLines : Text → List Text
  | [] => [[]]
  | '\r' :: '\n' :: rest => [] :: splitLines rest
  | '\n' :: rest => [] :: splitLines rest
  | c :: rest =>
    match splitLines rest with
    | [] => [[c]]
    | line :: lines => (c :: line) :: lines

/-- A line without the carriage return at its end. -/
def chomp : Text → Text
  | [] => []
  | ['\r'] => []
  | c :: rest => c :: chomp rest

theorem chomp_cons {c : Char} (h : c ≠ '\r') (rest : Text) : chomp (c :: rest) = c :: chomp rest := by
  rw [chomp]
  rintro rfl
  exact absurd rfl h

theorem chomp_append {mark : Text} (h : '\r' ∉ mark) (rest : Text) :
    chomp (mark ++ rest) = mark ++ chomp rest := by
  induction mark with
  | nil => rfl
  | cons c mark ih =>
    obtain ⟨hc, hmark⟩ := List.ne_and_not_mem_of_not_mem_cons h
    rw [List.cons_append, chomp_cons (Ne.symm hc), ih hmark, List.cons_append]

theorem chomp_eq_self {line : Text} (h : '\r' ∉ line) : chomp line = line := by
  simpa [chomp] using chomp_append h []

/-- A line up to its break is split off, whatever follows. -/
theorem splitLines_append {line : Text} (h : '\n' ∉ line) (rest : Text) :
    splitLines (line ++ '\n' :: rest) = chomp line :: splitLines rest := by
  fun_induction chomp line with
  | case1 | case2 => rfl
  | case3 c line hlast ih =>
    obtain ⟨hc, hline⟩ := List.ne_and_not_mem_of_not_mem_cons h
    rw [List.cons_append, splitLines, ih hline]
    · intro rest' hreturn hfeed
      cases line with
      | nil => exact hlast hreturn rfl
      | cons d line =>
        rw [List.cons_append, List.cons.injEq] at hfeed
        exact hline (hfeed.1 ▸ List.mem_cons_self)
    · exact fun hfeed => hc hfeed.symm

/-- Lines that are each ended by a line feed are found again, with an empty piece at the end. -/
theorem splitLines_flatMap {lines : List Text} (h : ∀ line ∈ lines, '\n' ∉ line) :
    splitLines (lines.flatMap (· ++ ['\n'])) = lines.map chomp ++ [[]] := by
  induction lines with
  | nil => rfl
  | cons line lines ih =>
    rw [List.flatMap_cons, List.append_assoc, List.singleton_append,
      splitLines_append (h line List.mem_cons_self),
      ih fun line hline => h line (List.mem_cons_of_mem _ hline), List.map_cons, List.cons_append]

end Text
