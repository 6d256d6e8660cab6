import BookLibrary.PlainData.Value
import Mathlib.Data.List.Perm.Lattice
import Mathlib.Data.List.Sort

/-!
# Values whose entries stand in another order

An object has each key once, and what it says does not depend on the order of its entries.
-/

namespace PlainData

variable {ν : Type}

/-- One value is the other with the entries of some objects in another order, at any depth. -/
inductive Reordered : PlainData ν → PlainData ν → Prop
  | refl (value : PlainData ν) : Reordered value value
  | trans {first second third : PlainData ν} :
    Reordered first second → Reordered second third → Reordered first third
  | entries {entries entries' : List (String × PlainData ν)} :
    (entries.map Prod.fst).Nodup → entries.Perm entries' →
    Reordered (.object entries) (.object entries')
  | item (before after : List (PlainData ν)) {value value' : PlainData ν} :
    Reordered value value' →
    Reordered (.array (before ++ value :: after)) (.array (before ++ value' :: after))
  | property (before after : List (String × PlainData ν)) (key : String)
    {value value' : PlainData ν} :
    Reordered value value' →
    Reordered (.object (before ++ (key, value) :: after)) (.object (before ++ (key, value') :: after))

def string? : PlainData ν → Option String
  | .string value => some value
  | _ => none

def items? : PlainData ν → Option (List (PlainData ν))
  | .array items => some items
  | _ => none

theorem lookup_perm {entries entries' : List (String × PlainData ν)}
    (hkeys : (entries.map Prod.fst).Nodup) (h : entries.Perm entries') (key : String) :
    entries.lookup key = entries'.lookup key := by
  induction h with
  | nil => rfl
  | cons entry _ ih =>
    rw [List.lookup_cons, List.lookup_cons, ih (List.nodup_cons.mp hkeys).2]
  | swap first second rest =>
    have hne : second.1 ≠ first.1 := by
      simp only [List.map_cons, List.nodup_cons, List.mem_cons, not_or] at hkeys
      exact hkeys.1.1
    rw [List.lookup_cons, List.lookup_cons, List.lookup_cons, List.lookup_cons]
    by_cases hfirst : key = first.1
    · have hsecond : (key == second.1) = false := beq_eq_false_iff_ne.mpr (hfirst ▸ hne.symm)
      simp only [hsecond]
    · have hfirst : (key == first.1) = false := beq_eq_false_iff_ne.mpr hfirst
      simp only [hfirst]
  | trans h _ ih ih' => rw [ih hkeys, ih' ((h.map Prod.fst).nodup hkeys)]

/-- A list whose items have keys of their own is sorted in one way, however it stood. -/
theorem insertionSort_perm {α β : Type} {r : α → α → Prop} [DecidableRel r] [Std.Total r]
    [IsTrans α r] (key : α → β) (hkey : ∀ ⦃a b⦄, r a b → r b a → key a = key b)
    {items items' : List α} (hnodup : (items.map key).Nodup) (h : items.Perm items') :
    items.insertionSort r = items'.insertionSort r := by
  have hperm := (List.perm_insertionSort r items).trans
    (h.trans (List.perm_insertionSort r items').symm)
  refine hperm.eq_of_pairwise (fun first second hfirst hsecond hle hge => ?_)
    (List.pairwise_insertionSort r items) (List.pairwise_insertionSort r items')
  rw [List.mem_insertionSort] at hfirst hsecond
  exact List.inj_on_of_nodup_map hnodup hfirst (h.mem_iff.mpr hsecond) (hkey hle hge)

/-- A reading of values that the order of entries does not change. -/
def OrderBlind {β : Type} (read : PlainData ν → β) : Prop :=
  ∀ ⦃value value' : PlainData ν⦄, Reordered value value' → read value = read value'

namespace OrderBlind

variable {β γ : Type} {read : PlainData ν → β}

theorem string? : OrderBlind (string? : PlainData ν → Option String) := by
  intro value value' h
  induction h with
  | refl | entries | item | property => rfl
  | trans _ _ ih ih' => exact ih.trans ih'

/-- Reading what stands at a key. -/
theorem child (hread : OrderBlind read) (key : String) :
    OrderBlind fun value => (value.child (.property key)).map read := by
  intro value value' h
  induction h with
  | refl | item => rfl
  | trans _ _ ih ih' => exact ih.trans ih'
  | entries hkeys hperm => simp only [PlainData.child, lookup_perm hkeys hperm]
  | property before after other h =>
    simp only [PlainData.child, List.lookup_append, List.lookup_cons]
    cases before.lookup key with
    | some found => rfl
    | none =>
      cases key == other with
      | true => exact congrArg some (hread h)
      | false => rfl

/-- Reading every item of an array. -/
theorem items? (hread : OrderBlind read) :
    OrderBlind fun value => value.items?.map (List.map read) := by
  intro value value' h
  induction h with
  | refl | entries | property => rfl
  | trans _ _ ih ih' => exact ih.trans ih'
  | item before after h =>
    simp only [PlainData.items?, Option.map_some, List.map_append, List.map_cons, hread h]

theorem comp (hread : OrderBlind read) (f : β → γ) : OrderBlind fun value => f (read value) :=
  fun _ _ h => congrArg f (hread h)

end OrderBlind

end PlainData
