import BookLibrary.PlainData.Masking

/-!
# The redacted context of a security event

The context of an event may be any plain data. What stands at a sensitive key is replaced
before the event is stored.
-/

namespace SecurityActivity

variable {ν : Type}

/-- The words of the sensitive key pattern. -/
def sensitiveWords : List String :=
  ["password", "token", "secret", "authorization", "cookie", "credential", "identifier",
    "email", "login"]

/-- A key that has one of the words somewhere in it, in capitals or not. Ignoring case, an
ASCII letter equals no letter outside ASCII, so its case is the only one to fold. -/
def sensitiveKeyPattern (key : String) : Bool :=
  (key.toList.map Char.toLower).tails.any fun rest =>
    sensitiveWords.any fun word => word.toList.isPrefixOf rest

mutual

/-- The keys of an object are distinct, so the entries that are put together again are
those that were taken apart. -/
def redactContext : PlainData ν → PlainData ν
  | .array items => .array (redactItems items)
  | .object entries => .object (redactEntries entries)
  | value => value

def redactItems : List (PlainData ν) → List (PlainData ν)
  | [] => []
  | item :: items => redactContext item :: redactItems items

def redactEntries : List (String × PlainData ν) → List (String × PlainData ν)
  | [] => []
  | (key, entry) :: entries =>
    (key, if sensitiveKeyPattern key then .string "[REDACTED]" else redactContext entry) ::
      redactEntries entries

end

theorem redactItems_eq_map (items : List (PlainData ν)) :
    redactItems items = items.map redactContext := by
  induction items with
  | nil => rfl
  | cons item items ih => rw [redactItems, ih, List.map_cons]

theorem redactEntries_eq_map (entries : List (String × PlainData ν)) :
    redactEntries entries = entries.map fun entry =>
      (entry.1, if sensitiveKeyPattern entry.1 then .string "[REDACTED]"
        else redactContext entry.2) := by
  induction entries with
  | nil => rfl
  | cons entry entries ih => rw [redactEntries, ih, List.map_cons]

/-- The redacted context is the mask of the context that hides the sensitive keys. -/
theorem redactContext_eq_mask (value : PlainData ν) :
    redactContext value = PlainData.mask sensitiveKeyPattern (.string "[REDACTED]") value := by
  induction value with
  | undefined | null | bool | number | string => rfl
  | array items ih =>
    rw [redactContext, redactItems_eq_map, PlainData.mask, PlainData.maskItems_eq_map,
      List.map_congr_left ih]
  | object entries ih =>
    rw [redactContext, redactEntries_eq_map, PlainData.mask, PlainData.maskEntries_eq_map]
    congr 1
    refine List.map_congr_left fun entry hentry => ?_
    rw [ih entry hentry]

/-- A path that passes no sensitive key. -/
def Seen (path : List PlainData.Step) : Prop :=
  ∀ key, .property key ∈ path → sensitiveKeyPattern key = false

/-- Nothing of what stands at a sensitive key shows in a redacted context, and all else stays. -/
theorem redaction_noninterference (value : PlainData ν) :
    (∀ path, Seen path →
      Option.Rel PlainData.SameNode (value.follow path) ((redactContext value).follow path)) ∧
    redactContext (redactContext value) = redactContext value ∧
    ∀ other, PlainData.AgreeOutside sensitiveKeyPattern value other →
      redactContext value = redactContext other := by
  simp only [redactContext_eq_mask]
  refine ⟨fun path hseen => ?_, PlainData.mask_mask _ _ value, fun other h => h.mask_eq _⟩
  rw [PlainData.follow_mask _ hseen]
  cases value.follow path with
  | none => exact .none
  | some reached => exact .some (PlainData.sameNode_mask _ _ reached)

example : sensitiveKeyPattern "loginToken" = true ∧ sensitiveKeyPattern "user" = false := by decide

end SecurityActivity
