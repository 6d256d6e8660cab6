import BookLibrary.PlainData.Value

/-!
# Masking the values of chosen keys

A mask puts one value in the place of whatever stands at a hidden key, at any depth. It keeps
what is reached without passing a hidden key, and it lets nothing else through: values that
agree outside the hidden keys have the same mask.
-/

namespace PlainData

variable {ν : Type} (hides : String → Bool)

section Mask

variable (cover : PlainData ν)

mutual

/-- Every value at a hidden key replaced by the cover. -/
def mask : PlainData ν → PlainData ν
  | .array items => .array (maskItems items)
  | .object entries => .object (maskEntries entries)
  | value => value

/-- The mask of every item. -/
def maskItems : List (PlainData ν) → List (PlainData ν)
  | [] => []
  | item :: items => mask item :: maskItems items

/-- The entries with the cover at the hidden keys and the masks of the values at the others. -/
def maskEntries : List (String × PlainData ν) → List (String × PlainData ν)
  | [] => []
  | (key, value) :: entries =>
    (key, if hides key then cover else mask value) :: maskEntries entries

end

@[simp] theorem maskItems_eq_map (items : List (PlainData ν)) :
    maskItems hides cover items = items.map (mask hides cover) := by
  induction items with
  | nil => rfl
  | cons item items ih => rw [maskItems, ih, List.map_cons]

@[simp] theorem maskEntries_eq_map (entries : List (String × PlainData ν)) :
    maskEntries hides cover entries =
      entries.map fun entry => (entry.1, if hides entry.1 then cover else mask hides cover entry.2) := by
  induction entries with
  | nil => rfl
  | cons entry entries ih => rw [maskEntries, ih, List.map_cons]

/-- A masked value keeps its mask. -/
theorem mask_mask (value : PlainData ν) :
    mask hides cover (mask hides cover value) = mask hides cover value := by
  induction value with
  | undefined | null | bool | number | string => rfl
  | array items ih => simpa [mask] using ih
  | object entries ih =>
    simp only [mask, maskEntries_eq_map, List.map_map, object.injEq, List.map_inj_left]
    intro entry hentry
    by_cases h : hides entry.1 = true
    · simp [h]
    · simp [h, ih entry hentry]

/-- A mask keeps the shape at the top. -/
theorem sameNode_mask (value : PlainData ν) : SameNode value (mask hides cover value) := by
  cases value with
  | undefined | null | bool | number | string => exact .refl _
  | array items => exact .array (by simp)
  | object entries => exact .object (by simp [Function.comp_def])

variable {hides}

theorem lookup_maskEntries (entries : List (String × PlainData ν)) (key : String) :
    (maskEntries hides cover entries).lookup key =
      (entries.lookup key).map fun value => if hides key then cover else mask hides cover value := by
  induction entries with
  | nil => rfl
  | cons entry entries ih =>
    obtain ⟨key', value⟩ := entry
    by_cases h : key = key'
    · subst h
      simp [maskEntries]
    · have hne : (key == key') = false := beq_false_of_ne h
      rw [maskEntries, List.lookup_cons, List.lookup_cons, hne]
      exact ih

/-- A step that passes no hidden key leads to the mask of what it led to. -/
theorem child_mask {step : Step} (hseen : ∀ key, step = .property key → hides key = false)
    (value : PlainData ν) :
    (mask hides cover value).child step = (value.child step).map (mask hides cover) := by
  cases value with
  | undefined | null | bool | number | string => cases step <;> rfl
  | array items =>
    cases step with
    | item index => simp [mask, child]
    | property key => rfl
  | object entries =>
    cases step with
    | item index => rfl
    | property key =>
      rw [mask, child, lookup_maskEntries, hseen key rfl]
      rfl

/-- What is reached without passing a hidden key is masked in its place. -/
theorem follow_mask {path : List Step} (hseen : ∀ key, .property key ∈ path → hides key = false)
    (value : PlainData ν) :
    (mask hides cover value).follow path = (value.follow path).map (mask hides cover) := by
  induction path generalizing value with
  | nil => rfl
  | cons step path ih =>
    have hstep : ∀ key, step = .property key → hides key = false := fun key h =>
      hseen key (h ▸ List.mem_cons_self)
    have hpath : ∀ key, .property key ∈ path → hides key = false := fun key h =>
      hseen key (List.mem_cons_of_mem _ h)
    rw [follow, follow, child_mask cover hstep]
    cases value.child step with
    | none => rfl
    | some next => exact ih hpath next

end Mask

mutual

/-- Values that differ below hidden keys only. -/
inductive AgreeOutside : PlainData ν → PlainData ν → Prop
  | refl (value : PlainData ν) : AgreeOutside value value
  | array {items items' : List (PlainData ν)} :
    List.Forall₂ AgreeOutside items items' → AgreeOutside (.array items) (.array items')
  | object {entries entries' : List (String × PlainData ν)} :
    List.Forall₂ EntriesAgree entries entries' → AgreeOutside (.object entries) (.object entries')

/-- Entries with one key, and with values that agree unless the key is hidden. -/
inductive EntriesAgree : String × PlainData ν → String × PlainData ν → Prop
  | hidden {key : String} {value value' : PlainData ν} :
    hides key = true → EntriesAgree (key, value) (key, value')
  | seen {key : String} {value value' : PlainData ν} :
    AgreeOutside value value' → EntriesAgree (key, value) (key, value')

end

variable {hides} (cover : PlainData ν)

/-- Values that agree outside the hidden keys have one mask. -/
theorem AgreeOutside.mask_eq {value value' : PlainData ν} (h : AgreeOutside hides value value') :
    mask hides cover value = mask hides cover value' := by
  induction value generalizing value' with
  | undefined | null | bool | number | string => cases h; rfl
  | array items ih =>
    cases h with
    | refl => rfl
    | array hitems =>
      rw [mask, mask, maskItems_eq_map, maskItems_eq_map]
      congr 1
      induction hitems with
      | nil => rfl
      | cons hitem _ ihitems =>
        rw [List.map_cons, List.map_cons, ih _ List.mem_cons_self hitem,
          ihitems fun item h => ih item (List.mem_cons_of_mem _ h)]
  | object entries ih =>
    cases h with
    | refl => rfl
    | object hentries =>
      rw [mask, mask]
      congr 1
      induction hentries with
      | nil => rfl
      | cons hentry _ ihentries =>
        have htail := ihentries fun entry h => ih entry (List.mem_cons_of_mem _ h)
        cases hentry with
        | hidden hkey => simp only [maskEntries, hkey, if_true, htail]
        | seen hvalue => simp only [maskEntries, ih _ List.mem_cons_self hvalue, htail]

end PlainData
