import Mathlib.Data.Nat.Notation
import Mathlib.Tactic.TypeStar

/-!
# Edits

An edit goes along a list, keeps or deletes its items and puts new items between them. The items
that it keeps stay in their order, so that each of them has one place before and one after.
-/

namespace Edits

variable {α : Type*}

inductive Step (α : Type*) where
  | keep (item : α)
  | delete (item : α)
  | insert (item : α)

/-- The list that is edited. -/
def before : List (Step α) → List α
  | [] => []
  | .keep item :: edit => item :: before edit
  | .delete item :: edit => item :: before edit
  | .insert _ :: edit => before edit

/-- The list that comes out. -/
def after : List (Step α) → List α
  | [] => []
  | .keep item :: edit => item :: after edit
  | .delete _ :: edit => after edit
  | .insert item :: edit => item :: after edit

/-- Where the item at a place goes, if it is kept. -/
def move : List (Step α) → ℕ → Option ℕ
  | [], _ => none
  | .keep _ :: _, 0 => some 0
  | .keep _ :: edit, place + 1 => (move edit place).map (· + 1)
  | .delete _ :: _, 0 => none
  | .delete _ :: edit, place + 1 => move edit place
  | .insert _ :: edit, place => (move edit place).map (· + 1)

variable {edit : List (Step α)} {place place' other other' : ℕ}

/-- An item that is kept is the same item. -/
theorem get_of_move (h : move edit place = some place') :
    ∃ item, (before edit)[place]? = some item ∧ (after edit)[place']? = some item := by
  induction edit generalizing place place' with
  | nil => cases h
  | cons step edit ih =>
    cases step with
    | keep item =>
      cases place with
      | zero =>
        cases h
        exact ⟨item, rfl, rfl⟩
      | succ place =>
        obtain ⟨moved, hmoved, rfl⟩ := Option.map_eq_some_iff.mp h
        exact ih hmoved
    | delete item =>
      cases place with
      | zero => cases h
      | succ place => exact @ih place place' h
    | insert item =>
      obtain ⟨moved, hmoved, rfl⟩ := Option.map_eq_some_iff.mp h
      exact ih hmoved

/-- Items that are kept stay in their order. -/
theorem move_lt_iff (h : move edit place = some place') (hother : move edit other = some other') :
    place < other ↔ place' < other' := by
  induction edit generalizing place place' other other' with
  | nil => cases h
  | cons step edit ih =>
    cases step with
    | keep item =>
      cases place with
      | zero =>
        cases h
        cases other with
        | zero =>
          cases hother
          rfl
        | succ other =>
          obtain ⟨moved, -, rfl⟩ := Option.map_eq_some_iff.mp hother
          exact iff_of_true (Nat.zero_lt_succ other) (Nat.zero_lt_succ moved)
      | succ place =>
        obtain ⟨moved, hmoved, rfl⟩ := Option.map_eq_some_iff.mp h
        cases other with
        | zero =>
          cases hother
          omega
        | succ other =>
          obtain ⟨moved', hmoved', rfl⟩ := Option.map_eq_some_iff.mp hother
          have hrest := ih hmoved hmoved'
          omega
    | delete item =>
      cases place with
      | zero => cases h
      | succ place =>
        cases other with
        | zero => cases hother
        | succ other =>
          have hrest := @ih place place' other other' h hother
          omega
    | insert item =>
      obtain ⟨moved, hmoved, rfl⟩ := Option.map_eq_some_iff.mp h
      obtain ⟨moved', hmoved', rfl⟩ := Option.map_eq_some_iff.mp hother
      have hrest := ih hmoved hmoved'
      omega

theorem move_le_iff (h : move edit place = some place') (hother : move edit other = some other') :
    place ≤ other ↔ place' ≤ other' := by
  have hlt := move_lt_iff hother h
  omega

end Edits
