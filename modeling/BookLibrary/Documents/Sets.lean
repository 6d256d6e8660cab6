import Mathlib.Data.Finset.Card
import Mathlib.Data.Finset.Dedup
import Mathlib.Data.List.Basic

/-!
# Lists as sets

What the host language's `Set` of a list says of the list.
-/

namespace Documents

variable {α : Type} [DecidableEq α] {xs ys : List α}

theorem nodup_eraseDups (xs : List α) : xs.eraseDups.Nodup := by
  -- each round takes the later copies of the first element away
  induction h : xs.length using Nat.strong_induction_on generalizing xs with
  | _ n ih =>
    cases xs with
    | nil => exact List.nodup_nil
    | cons x xs =>
      rw [List.eraseDups_cons, List.nodup_cons]
      refine ⟨by simp, ih _ ?_ _ rfl⟩
      have hle := List.length_filter_le (fun y => !y == x) xs
      rw [← h, List.length_cons]
      omega

/-- The size of the set of a list. -/
theorem length_eraseDups (xs : List α) : xs.eraseDups.length = xs.toFinset.card := by
  rw [← List.toFinset_card_of_nodup (nodup_eraseDups xs)]
  congr 1
  ext x
  simp

/-- Among sets of one size, the one that is contained in the other is the other. -/
theorem mem_iff_of_length_eraseDups (hlength : xs.eraseDups.length = ys.eraseDups.length)
    (hsub : ∀ x ∈ xs, x ∈ ys) (x : α) : x ∈ xs ↔ x ∈ ys := by
  have hsubset : xs.toFinset ⊆ ys.toFinset := by
    intro y hy
    rw [List.mem_toFinset] at hy ⊢
    exact hsub y hy
  rw [length_eraseDups, length_eraseDups] at hlength
  have heq := Finset.eq_of_subset_of_card_le hsubset hlength.ge
  rw [← List.mem_toFinset, heq, List.mem_toFinset]

theorem length_eraseDups_congr (h : ∀ x, x ∈ xs ↔ x ∈ ys) :
    xs.eraseDups.length = ys.eraseDups.length := by
  rw [length_eraseDups, length_eraseDups]
  congr 1
  ext x
  rw [List.mem_toFinset, List.mem_toFinset, h]

end Documents
