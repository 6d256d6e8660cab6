import BookLibrary.Operations.Mappings
import BookLibrary.PlainData.Reordering
import BookLibrary.Text.CodeUnits
import BookLibrary.Text.Json

/-!
# The canonical JSON of a manifest

A repair manifest is an object, read by the names of its properties. Its canonical JSON has
the keys of every object in order, and it tells two manifests apart.
-/

namespace Operations

open AuthIdentifiers Interleaving Text

namespace AuthIdentifierRepairManifest

variable {ν : Type} (numeral : ν → Option Text)

section CanonicalJson

def isUndefined : PlainData ν → Bool
  | .undefined => true
  | _ => false

@[simp]
theorem isUndefined_string (value : String) :
    isUndefined (.string value : PlainData ν) = false := rfl

@[simp]
theorem isUndefined_array (items : List (PlainData ν)) : isUndefined (.array items) = false := rfl

/-- `,` between the texts. -/
def joined (texts : List Text) : Text := List.intercalate [','] texts

def property (entry : String × Except Failure Text) : Except Failure Text := do
  let text ← entry.2
  return jsonString entry.1.toList ++ ':' :: text

/-- The order of the keys. -/
abbrev InOrder (entry entry' : String × Except Failure Text) : Prop :=
  notAfter entry.1 entry'.1 = true

mutual

/-- A number that is not finite has no numeral. -/
def canonicalJson : PlainData ν → Except Failure Text
  | .undefined => throw (.unprocessable "Repair manifest contains an unsupported value")
  | .null => return "null".toList
  | .bool true => return "true".toList
  | .bool false => return "false".toList
  | .number value =>
    match numeral value with
    | none => throw (.unprocessable "Repair manifest contains a non-finite number")
    | some text => return text
  | .string value => return jsonString value.toList
  | .array items => do
    let texts ← canonicalItems items
    return '[' :: joined texts ++ [']']
  | .object entries => do
    let texts ← ((canonicalEntries entries).insertionSort InOrder).mapM property
    return '{' :: joined texts ++ ['}']

def canonicalItems : List (PlainData ν) → Except Failure (List Text)
  | [] => return []
  | item :: items => do
    let text ← canonicalJson item
    let texts ← canonicalItems items
    return text :: texts

/-- The keys whose values are not `undefined`, with what becomes of the values. -/
def canonicalEntries : List (String × PlainData ν) → List (String × Except Failure Text)
  | [] => []
  | (key, value) :: entries =>
    if isUndefined value then canonicalEntries entries
    else (key, canonicalJson value) :: canonicalEntries entries

end

theorem canonicalItems_eq_mapM (items : List (PlainData ν)) :
    canonicalItems numeral items = items.mapM (canonicalJson numeral) := by
  induction items with
  | nil => rfl
  | cons item items ih => rw [canonicalItems, List.mapM_cons, ih]

theorem canonicalEntries_eq (entries : List (String × PlainData ν)) :
    canonicalEntries numeral entries = (entries.filter fun entry => !isUndefined entry.2).map
      fun entry => (entry.1, canonicalJson numeral entry.2) := by
  induction entries with
  | nil => rfl
  | cons entry entries ih =>
    rw [canonicalEntries, ih]
    cases h : isUndefined entry.2 with
    | true => simp [h]
    | false => simp [h]

theorem keys_nodup {entries : List (String × PlainData ν)} (h : (entries.map Prod.fst).Nodup) :
    ((canonicalEntries numeral entries).map Prod.fst).Nodup := by
  rw [canonicalEntries_eq, List.map_map]
  exact h.sublist (List.filter_sublist.map Prod.fst)

instance : Std.Total InOrder := ⟨fun _ _ => notAfter_total _ _⟩

instance : IsTrans _ InOrder := ⟨fun _ _ _ => notAfter_trans⟩

theorem isUndefined_blind : PlainData.OrderBlind (isUndefined : PlainData ν → Bool) := by
  intro value value' h
  induction h with
  | refl | entries | item | property => rfl
  | trans _ _ ih ih' => exact ih.trans ih'

/-- The order of the keys of an object does not show in its canonical JSON. -/
theorem canonicalJson_blind : PlainData.OrderBlind (canonicalJson numeral) := by
  intro value value' h
  induction h with
  | refl => rfl
  | trans _ _ ih ih' => exact ih.trans ih'
  | @entries entries entries' hkeys hperm =>
    have hentries : (canonicalEntries numeral entries).Perm (canonicalEntries numeral entries') := by
      rw [canonicalEntries_eq, canonicalEntries_eq]
      exact (hperm.filter _).map _
    rw [canonicalJson, canonicalJson, PlainData.insertionSort_perm Prod.fst
      (fun _ _ => notAfter_antisymm) (keys_nodup numeral hkeys) hentries]
  | item before after _ ih =>
    simp only [canonicalJson, canonicalItems_eq_mapM, List.mapM_append, List.mapM_cons, ih]
  | property before after key h ih =>
    have hdefined := isUndefined_blind h
    simp only [canonicalJson, canonicalEntries_eq, List.filter_append, List.filter_cons, hdefined,
      List.map_append]
    split <;> simp only [List.map_cons, ih]

end CanonicalJson

section Objects

/-! ### Manifests as objects -/

def subjectData (subject : AuthIdentifierSubjectReference) : PlainData ν :=
  .object [("subjectType", .string (subjectTypeText subject.subjectType)),
    ("subjectId", .string subject.subjectId)]

def reassignmentData (item : Reassignment) : PlainData ν :=
  .object [("subjectType", .string (subjectTypeText item.subjectType)),
    ("subjectId", .string item.subjectId), ("newIdentifier", .string item.newIdentifier)]

/-- The object that a manifest is, as `normalizeRepairManifest` builds it. -/
def manifestData (manifest : RepairManifest) : PlainData ν :=
  .object ([("conflictId", .string manifest.conflictId),
    ("reassignments", .array (manifest.reassignments.map reassignmentData))] ++
      manifest.retainedSubject.toList.map fun subject => ("retainedSubject", subjectData subject))

def readString (key : String) (value : PlainData ν) : Option String :=
  ((value.child (.property key)).map PlainData.string?).join

def subjectTypeOf (text : String) : Option AuthIdentifierSubjectType :=
  if text = subjectTypeText .staff then some .staff
  else if text = subjectTypeText .member then some .member
  else none

def readSubject (value : PlainData ν) : Option AuthIdentifierSubjectReference :=
  match (readString "subjectType" value).bind subjectTypeOf, readString "subjectId" value with
  | some subjectType, some subjectId => some ⟨subjectType, subjectId⟩
  | _, _ => none

def readReassignment (value : PlainData ν) : Option Reassignment :=
  match readSubject value, readString "newIdentifier" value with
  | some subject, some newIdentifier => some { subject with newIdentifier := newIdentifier }
  | _, _ => none

/-- A retained subject that is `undefined` is none. -/
def readRetained (value : PlainData ν) : Option (Option AuthIdentifierSubjectReference) :=
  if isUndefined value then some none else (readSubject value).map some

def readReassignments (value : PlainData ν) : Option (List Reassignment) :=
  (value.items?.map (List.map readReassignment)).bind fun items => items.mapM id

/-- The manifest that an object is, if it is one. -/
def readManifest (value : PlainData ν) : Option RepairManifest :=
  match readString "conflictId" value,
    ((value.child (.property "retainedSubject")).map readRetained).getD (some none),
    ((value.child (.property "reassignments")).map readReassignments).join with
  | some conflictId, some retainedSubject, some reassignments =>
    some ⟨conflictId, retainedSubject, reassignments⟩
  | _, _, _ => none

theorem readString_blind (key : String) :
    PlainData.OrderBlind (readString key : PlainData ν → Option String) :=
  (PlainData.OrderBlind.string?.child key).comp Option.join

theorem readSubject_blind :
    PlainData.OrderBlind (readSubject : PlainData ν → Option AuthIdentifierSubjectReference) := by
  intro value value' h
  rw [readSubject, readSubject, readString_blind _ h, readString_blind _ h]

theorem readReassignment_blind :
    PlainData.OrderBlind (readReassignment : PlainData ν → Option Reassignment) := by
  intro value value' h
  rw [readReassignment, readReassignment, readSubject_blind h, readString_blind _ h]

theorem readRetained_blind : PlainData.OrderBlind
    (readRetained : PlainData ν → Option (Option AuthIdentifierSubjectReference)) := by
  intro value value' h
  rw [readRetained, readRetained, isUndefined_blind h, readSubject_blind h]

theorem readReassignments_blind :
    PlainData.OrderBlind (readReassignments : PlainData ν → Option (List Reassignment)) :=
  readReassignment_blind.items?.comp fun items => items.bind fun items => items.mapM id

/-- Objects that differ in the order of their keys are the same manifest. -/
theorem readManifest_blind :
    PlainData.OrderBlind (readManifest : PlainData ν → Option RepairManifest) := by
  intro value value' h
  have hretained := readRetained_blind.child "retainedSubject" h
  have hreassignments := readReassignments_blind.child "reassignments" h
  simp only at hretained hreassignments
  rw [readManifest, readManifest, readString_blind _ h, hretained, hreassignments]

theorem readSubject_data (subject : AuthIdentifierSubjectReference) :
    readSubject (subjectData subject : PlainData ν) = some subject := by
  obtain ⟨subjectType, subjectId⟩ := subject
  cases subjectType <;> rfl

theorem readReassignment_data (item : Reassignment) :
    readReassignment (reassignmentData item : PlainData ν) = some item := by
  obtain ⟨⟨subjectType, subjectId⟩, newIdentifier⟩ := item
  cases subjectType <;> rfl

theorem readReassignments_data (items : List Reassignment) :
    readReassignments (.array (items.map reassignmentData) : PlainData ν) = some items := by
  have hread : (items.map reassignmentData).map (readReassignment : PlainData ν → _) =
      items.map some := by
    rw [List.map_map]
    exact List.map_congr_left fun item _ => readReassignment_data item
  have hall : ∀ items : List Reassignment, (items.map some).mapM id = some items := by
    intro items
    induction items with
    | nil => rfl
    | cons item items ih =>
      rw [List.map_cons, List.mapM_cons, ih]
      rfl
  simp only [readReassignments, PlainData.items?, Option.map_some, Option.bind_some, hread, hall]

/-- Every manifest is read off its object. -/
theorem readManifest_data (manifest : RepairManifest) :
    readManifest (manifestData manifest : PlainData ν) = some manifest := by
  have hconflict : readString "conflictId" (manifestData manifest : PlainData ν) =
    some manifest.conflictId := rfl
  have hreassignments : (manifestData manifest : PlainData ν).child (.property "reassignments") =
    some (.array (manifest.reassignments.map reassignmentData)) := rfl
  have hretained : (manifestData manifest : PlainData ν).child (.property "retainedSubject") =
      manifest.retainedSubject.map subjectData := by
    obtain ⟨conflictId, retainedSubject, reassignments⟩ := manifest
    cases retainedSubject <;> rfl
  have hread : ((manifest.retainedSubject.map subjectData).map
      (readRetained : PlainData ν → _)).getD (some none) = some manifest.retainedSubject := by
    cases manifest.retainedSubject with
    | none => rfl
    | some subject => exact congrArg (Option.map some) (readSubject_data subject)
  rw [readManifest, hconflict, hreassignments, hretained, hread, Option.map_some,
    readReassignments_data]
  rfl

end Objects

end AuthIdentifierRepairManifest

end Operations
