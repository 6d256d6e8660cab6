import Mathlib.Algebra.BigOperators.Group.List.Basic
import Mathlib.Algebra.GroupWithZero.Nat
import Mathlib.Data.List.Basic
import Mathlib.Data.List.Nodup

/-!
# Maps with an order

The host language's `Map`: its entries stay in the order in which their keys came.
-/

namespace Documents

variable {κ β : Type} [DecidableEq κ]

/-- The entry of a key replaced, or added at the end. -/
def setEntry (k : κ) (v : β) : List (κ × β) → List (κ × β)
  | [] => [(k, v)]
  | (k', v') :: entries =>
    if k' = k then (k, v) :: entries else (k', v') :: setEntry k v entries

def getEntry (k : κ) : List (κ × β) → Option β
  | [] => none
  | (k', v') :: entries => if k' = k then some v' else getEntry k entries

variable {entries : List (κ × β)} {k k' : κ} {v v' : β}

theorem getEntry_setEntry :
    getEntry k' (setEntry k v entries) = if k = k' then some v else getEntry k' entries := by
  induction entries with
  | nil => simp [setEntry, getEntry]
  | cons e entries ih =>
    obtain ⟨k₁, v₁⟩ := e
    rw [setEntry]
    by_cases hk : k₁ = k
    · subst hk
      simp only [if_pos, getEntry]
      by_cases hk' : k₁ = k'
      · simp [hk']
      · simp [hk']
    · rw [if_neg hk, getEntry, getEntry, ih]
      by_cases hk₁ : k₁ = k'
      · subst hk₁
        rw [if_pos rfl, if_pos rfl, if_neg (Ne.symm hk)]
      · rw [if_neg hk₁, if_neg hk₁]

theorem mem_keys_setEntry : k' ∈ (setEntry k v entries).map (·.1) ↔
    k' = k ∨ k' ∈ entries.map (·.1) := by
  induction entries with
  | nil => simp [setEntry]
  | cons e entries ih =>
    obtain ⟨k₁, v₁⟩ := e
    rw [setEntry]
    by_cases hk : k₁ = k
    · subst hk
      simp
    · rw [if_neg hk, List.map_cons, List.mem_cons, ih, List.map_cons, List.mem_cons]
      exact or_left_comm

theorem nodup_keys_setEntry (h : (entries.map (·.1)).Nodup) :
    ((setEntry k v entries).map (·.1)).Nodup := by
  induction entries with
  | nil => simp [setEntry]
  | cons e entries ih =>
    obtain ⟨k₁, v₁⟩ := e
    rw [List.map_cons, List.nodup_cons] at h
    rw [setEntry]
    by_cases hk : k₁ = k
    · subst hk
      simpa using h
    · rw [if_neg hk, List.map_cons, List.nodup_cons]
      refine ⟨fun hmem => ?_, ih h.2⟩
      rcases mem_keys_setEntry.mp hmem with heq | hmem
      · exact hk heq
      · exact h.1 hmem

/-- A sum over the values changes by the value that comes and the one that goes. -/
theorem sum_setEntry (f : β → ℕ) :
    ((setEntry k v entries).map fun e => f e.2).sum + ((getEntry k entries).map f).getD 0 =
      (entries.map fun e => f e.2).sum + f v := by
  induction entries with
  | nil => simp [setEntry, getEntry]
  | cons e entries ih =>
    obtain ⟨k₁, v₁⟩ := e
    rw [setEntry, getEntry]
    by_cases hk : k₁ = k
    · simp only [if_pos hk, List.map_cons, List.sum_cons, Option.map_some, Option.getD_some]
      omega
    · simp only [if_neg hk, List.map_cons, List.sum_cons]
      omega

theorem mem_keys_iff : k ∈ entries.map (·.1) ↔ ∃ v, getEntry k entries = some v := by
  induction entries with
  | nil => simp [getEntry]
  | cons e entries ih =>
    obtain ⟨k₁, v₁⟩ := e
    rw [List.map_cons, List.mem_cons, getEntry]
    by_cases hk : k₁ = k
    · simp [hk]
    · rw [if_neg hk, ih]
      exact ⟨fun h => h.resolve_left fun heq => hk heq.symm, .inr⟩

end Documents
