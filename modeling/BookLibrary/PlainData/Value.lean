import Mathlib.Data.List.Forall2
import Mathlib.Data.Option.Basic

/-!
# Plain data

The values that a text of JSON denotes, with `undefined` beside them, over any type of
numbers. An object is the list of its entries in the order in which they are enumerated.
A path leads from a value to the values nested in it.
-/

/-- A value of plain data. -/
inductive PlainData (ν : Type)
  | undefined
  | null
  | bool (value : Bool)
  | number (value : ν)
  | string (value : String)
  | array (items : List (PlainData ν))
  | object (entries : List (String × PlainData ν))

namespace PlainData

variable {ν : Type}

/-- Induction over a value: an array by its items, an object by the values of its entries. -/
@[elab_as_elim, induction_eliminator]
theorem nesting {motive : PlainData ν → Prop} (undefined : motive .undefined)
    (null : motive .null) (bool : ∀ value, motive (.bool value))
    (number : ∀ value, motive (.number value)) (string : ∀ value, motive (.string value))
    (array : ∀ items, (∀ item ∈ items, motive item) → motive (.array items))
    (object : ∀ entries, (∀ entry ∈ entries, motive entry.2) → motive (.object entries))
    (value : PlainData ν) : motive value := by
  refine PlainData.rec (motive_2 := fun items => ∀ item ∈ items, motive item)
    (motive_3 := fun entries => ∀ entry ∈ entries, motive entry.2)
    (motive_4 := fun entry => motive entry.2) undefined null bool number string array object
    ?_ ?_ ?_ ?_ ?_ value
  · exact fun _ h => absurd h List.not_mem_nil
  · exact fun head tail hhead htail => List.forall_mem_cons.mpr ⟨hhead, htail⟩
  · exact fun _ h => absurd h List.not_mem_nil
  · exact fun head tail hhead htail => List.forall_mem_cons.mpr ⟨hhead, htail⟩
  · exact fun _ _ h => h

/-- A step into a value: to an item of an array, or to a property of an object. -/
inductive Step
  | item (index : ℕ)
  | property (key : String)
  deriving DecidableEq

/-- The value that a step leads to. -/
def child : PlainData ν → Step → Option (PlainData ν)
  | .array items, .item index => items[index]?
  | .object entries, .property key => entries.lookup key
  | _, _ => none

/-- The value at the end of a path. -/
def follow (value : PlainData ν) : List Step → Option (PlainData ν)
  | [] => some value
  | step :: path => (value.child step).bind (follow · path)

/-- Values of one shape at the top: arrays of one length, objects with the same keys in the
same order, and otherwise the same value. -/
inductive SameNode : PlainData ν → PlainData ν → Prop
  | refl (value : PlainData ν) : SameNode value value
  | array {items items' : List (PlainData ν)} :
    items.length = items'.length → SameNode (.array items) (.array items')
  | object {entries entries' : List (String × PlainData ν)} :
    entries.map Prod.fst = entries'.map Prod.fst → SameNode (.object entries) (.object entries')

end PlainData
