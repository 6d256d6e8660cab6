import BookLibrary.Operations.Manifests
import BookLibrary.Text.Trimming

/-!
# Canonicalization of repair manifests

Manifests that differ in how they are written down have one canonical JSON, and manifests
with one canonical JSON have one normalized form.
-/

namespace Operations

open AuthIdentifiers Interleaving Text

namespace AuthIdentifierRepairManifest

variable {ν : Type} (numeral : ν → Option Text)

section Texts

/-! ### The text of a manifest -/

def stringText (text : String) : Text := jsonString text.toList

def typeText (subjectType : AuthIdentifierSubjectType) : Text :=
  stringText (subjectTypeText subjectType)

def propertyText {α : Type} (key : String) (encode : α → Text) (a : α) : Text :=
  (stringText key ++ [':']) ++ encode a

def subjectText (subject : AuthIdentifierSubjectReference) : Text :=
  ['{'] ++ ((propertyText "subjectId" stringText subject.subjectId ++ [',']) ++
    (propertyText "subjectType" typeText subject.subjectType ++ ['}']))

def reassignmentText (item : Reassignment) : Text :=
  ['{'] ++ ((propertyText "newIdentifier" stringText item.newIdentifier ++ [',']) ++
    ((propertyText "subjectId" stringText item.subjectId ++ [',']) ++
      (propertyText "subjectType" typeText item.subjectType ++ ['}'])))

def retainedText (subject : AuthIdentifierSubjectReference) : Text :=
  [','] ++ propertyText "retainedSubject" subjectText subject

def manifestText (manifest : RepairManifest) : Text :=
  ['{'] ++ ((propertyText "conflictId" stringText manifest.conflictId ++ [',']) ++
    (propertyText "reassignments" (listed reassignmentText) manifest.reassignments ++
      (manifest.retainedSubject.toList.flatMap retainedText ++ ['}'])))

theorem stringText_selfDelimiting : SelfDelimiting stringText :=
  jsonString_selfDelimiting.comap fun _ _ => String.toList_inj.mp

theorem typeText_selfDelimiting : SelfDelimiting typeText :=
  stringText_selfDelimiting.comap fun first second h => by
    cases first <;> cases second <;> simp_all [subjectTypeText]

theorem propertyText_selfDelimiting {α : Type} {encode : α → Text} (key : String)
    (h : SelfDelimiting encode) : SelfDelimiting (propertyText key encode) :=
  h.behind (stringText key ++ [':'])

theorem subjectText_selfDelimiting : SelfDelimiting subjectText := by
  have hid := propertyText_selfDelimiting "subjectId" stringText_selfDelimiting
  have htype := propertyText_selfDelimiting "subjectType" typeText_selfDelimiting
  refine (((hid.before [',']).pair (htype.before ['}'])).behind ['{']).comap
    (f := fun subject : AuthIdentifierSubjectReference => (subject.subjectId, subject.subjectType)) ?_
  rintro ⟨⟩ ⟨⟩ h
  simp_all

theorem reassignmentText_selfDelimiting : SelfDelimiting reassignmentText := by
  have hnew := propertyText_selfDelimiting "newIdentifier" stringText_selfDelimiting
  have hid := propertyText_selfDelimiting "subjectId" stringText_selfDelimiting
  have htype := propertyText_selfDelimiting "subjectType" typeText_selfDelimiting
  refine (((hnew.before [',']).pair ((hid.before [',']).pair (htype.before ['}']))).behind
    ['{']).comap (f := fun item : Reassignment =>
      (item.newIdentifier, item.subjectId, item.subjectType)) ?_
  rintro ⟨⟨⟩, _⟩ ⟨⟨⟩, _⟩ h
  simp_all

/-- A text begins with the canonical JSON of one manifest at most. -/
theorem manifestText_selfDelimiting : SelfDelimiting manifestText := by
  have hconflict := propertyText_selfDelimiting "conflictId" stringText_selfDelimiting
  have hitems := propertyText_selfDelimiting "reassignments"
    (reassignmentText_selfDelimiting.listed fun _ => ⟨'{', _, rfl, by decide⟩)
  have hretained := ((propertyText_selfDelimiting "retainedSubject"
    subjectText_selfDelimiting).behind [',']).closed '}' fun _ => ⟨',', _, rfl, by decide⟩
  refine (((hconflict.before [',']).pair (hitems.pair hretained)).behind ['{']).comap
    (f := fun manifest : RepairManifest =>
      (manifest.conflictId, manifest.reassignments, manifest.retainedSubject.toList)) ?_
  rintro ⟨conflictId, retained, reassignments⟩ ⟨conflictId', retained', reassignments'⟩ h
  simp only [Prod.mk.injEq] at h
  obtain ⟨rfl, rfl, hretained⟩ := h
  cases retained <;> cases retained' <;> simp_all

/-- The order of the keys that manifests have. -/
theorem inOrder : notAfter "subjectType" "subjectId" = false ∧
    notAfter "subjectId" "newIdentifier" = false ∧ notAfter "subjectType" "newIdentifier" = false ∧
    notAfter "conflictId" "reassignments" = true ∧
    notAfter "conflictId" "retainedSubject" = true ∧
    notAfter "reassignments" "retainedSubject" = true := by decide

theorem properties_ok (fields : List (String × Text)) :
    (fields.map fun field => (field.1, .ok field.2)).mapM property =
      .ok (fields.map fun field => stringText field.1 ++ ':' :: field.2) := by
  induction fields with
  | nil => rfl
  | cons field fields ih =>
    rw [List.map_cons, List.mapM_cons, ih]
    rfl

/-- An object whose values all have a text is the list of its properties in order. -/
theorem canonicalJson_object {entries : List (String × PlainData ν)} (fields : List (String × Text))
    (h : (canonicalEntries numeral entries).insertionSort InOrder =
      fields.map fun field => (field.1, .ok field.2)) :
    canonicalJson numeral (.object entries) =
      .ok ('{' :: joined (fields.map fun field => stringText field.1 ++ ':' :: field.2) ++ ['}']) := by
  rw [canonicalJson, h, properties_ok]
  rfl

theorem canonicalJson_subject (subject : AuthIdentifierSubjectReference) :
    canonicalJson numeral (subjectData subject) = .ok (subjectText subject) := by
  have hentries : canonicalEntries numeral [
      ("subjectType", .string (subjectTypeText subject.subjectType)),
      ("subjectId", .string subject.subjectId)] = [
        ("subjectType", .ok (typeText subject.subjectType)),
        ("subjectId", .ok (stringText subject.subjectId))] := rfl
  rw [subjectData, canonicalJson_object numeral [
    ("subjectId", stringText subject.subjectId), ("subjectType", typeText subject.subjectType)]
    (by rw [hentries]; simp [InOrder, inOrder])]
  simp [subjectText, propertyText, joined]

theorem canonicalJson_reassignment (item : Reassignment) :
    canonicalJson numeral (reassignmentData item) = .ok (reassignmentText item) := by
  have hentries : canonicalEntries numeral [
      ("subjectType", .string (subjectTypeText item.subjectType)),
      ("subjectId", .string item.subjectId), ("newIdentifier", .string item.newIdentifier)] = [
        ("subjectType", .ok (typeText item.subjectType)),
        ("subjectId", .ok (stringText item.subjectId)),
        ("newIdentifier", .ok (stringText item.newIdentifier))] := rfl
  rw [reassignmentData, canonicalJson_object numeral [
    ("newIdentifier", stringText item.newIdentifier), ("subjectId", stringText item.subjectId),
    ("subjectType", typeText item.subjectType)]
    (by rw [hentries]; simp [InOrder, inOrder])]
  simp [reassignmentText, propertyText, joined]

theorem canonicalItems_reassignments (items : List Reassignment) :
    canonicalItems numeral (items.map reassignmentData) = .ok (items.map reassignmentText) := by
  induction items with
  | nil => rfl
  | cons item items ih =>
    rw [List.map_cons, canonicalItems, canonicalJson_reassignment, ih]
    rfl

theorem canonicalJson_reassignments (items : List Reassignment) :
    canonicalJson numeral (.array (items.map reassignmentData)) =
      .ok (listed reassignmentText items) := by
  rw [canonicalJson, canonicalItems_reassignments]
  rfl

/-- A manifest has a canonical JSON. -/
theorem canonicalJson_manifest (manifest : RepairManifest) :
    canonicalJson numeral (manifestData manifest) = .ok (manifestText manifest) := by
  obtain ⟨conflictId, retained, reassignments⟩ := manifest
  have hconflict : canonicalJson numeral (.string conflictId) = .ok (stringText conflictId) := by
    rw [canonicalJson]
    rfl
  have hitems := canonicalJson_reassignments numeral reassignments
  cases retained with
  | none =>
    rw [manifestData, canonicalJson_object numeral [("conflictId", stringText conflictId),
      ("reassignments", listed reassignmentText reassignments)]
      (by simp [canonicalEntries, hconflict, hitems, InOrder, inOrder])]
    simp [manifestText, propertyText, joined]
  | some subject =>
    have hsubject := canonicalJson_subject numeral subject
    have hdefined : isUndefined (subjectData subject : PlainData ν) = false := rfl
    rw [manifestData, canonicalJson_object numeral [("conflictId", stringText conflictId),
      ("reassignments", listed reassignmentText reassignments),
      ("retainedSubject", subjectText subject)]
      (by simp [canonicalEntries, hconflict, hitems, hsubject, hdefined, InOrder, inOrder])]
    simp [manifestText, retainedText, propertyText, joined]

end Texts

section Normalization

variable (env : Environment)

/-- How the texts of manifests are handled: `trim` drops white space, and letter case can be
dropped before or after it, once and for all. -/
structure Spelling : Prop where
  trim : ∀ text, env.trim text = String.ofList (Text.trim text.toList)
  toLowerCase_toLowerCase : ∀ text, env.toLowerCase (env.toLowerCase text) = env.toLowerCase text
  toLowerCase_trim : ∀ text, env.toLowerCase (env.trim text) = env.trim (env.toLowerCase text)

def compareBy (text : Reassignment → String) (left right : Reassignment) : Ordering :=
  env.localeCompare (text left) (text right)

/-- By type and then by id. -/
def compareSubjects : Reassignment → Reassignment → Ordering :=
  compareLex (compareBy env fun item => subjectTypeText item.subjectType)
    (compareBy env (·.subjectId))

variable {env} {manifest manifest' : RepairManifest}

theorem subjectPrecedes_eq (left right : Reassignment) :
    subjectPrecedes env left right = (compareSubjects env left right).isLE := by
  rw [subjectPrecedes, compareSubjects, compareLex, compareBy, compareBy]
  cases env.localeCompare (subjectTypeText left.subjectType) (subjectTypeText right.subjectType)
  · rfl
  · cases env.localeCompare left.subjectId right.subjectId <;> rfl
  · rfl

section Order

variable [Std.TransCmp env.localeCompare]

instance (text : Reassignment → String) : Std.TransCmp (compareBy env text) where
  eq_swap := by
    intro left right
    rw [compareBy, compareBy]
    exact Std.OrientedCmp.eq_swap
  isLE_trans := by
    intro first second third h h'
    rw [compareBy] at h h' ⊢
    exact Std.TransCmp.isLE_trans h h'

instance : Std.TransCmp (compareSubjects env) :=
  inferInstanceAs (Std.TransCmp (compareLex _ _))

instance : Std.Total (subjectPrecedes env · · = true) where
  total left right := by
    rw [subjectPrecedes_eq, subjectPrecedes_eq]
    have hswap : compareSubjects env right left = (compareSubjects env left right).swap :=
      Std.OrientedCmp.eq_swap
    rw [hswap]
    cases compareSubjects env left right with
    | lt | eq => exact .inl rfl
    | gt => exact .inr rfl

instance : IsTrans Reassignment (subjectPrecedes env · · = true) where
  trans first second third h h' := by
    rw [subjectPrecedes_eq] at h h' ⊢
    exact Std.TransCmp.isLE_trans h h'

/-- Only reassignments of one subject stand on a par. -/
theorem subject_eq_of_precedes [Std.LawfulEqCmp env.localeCompare] {left right : Reassignment}
    (h : subjectPrecedes env left right = true) (h' : subjectPrecedes env right left = true) :
    left.toAuthIdentifierSubjectReference = right.toAuthIdentifierSubjectReference := by
  rw [subjectPrecedes_eq] at h h'
  have heq := Std.OrientedCmp.isLE_antisymm h h'
  rw [compareSubjects, compareLex_eq_eq] at heq
  obtain ⟨⟨leftType, leftId⟩, _⟩ := left
  obtain ⟨⟨rightType, rightId⟩, _⟩ := right
  have hid : leftId = rightId := Std.LawfulEqCmp.eq_of_compare heq.2
  have htype : subjectTypeText leftType = subjectTypeText rightType :=
    Std.LawfulEqCmp.eq_of_compare heq.1
  cases leftType <;> cases rightType <;> simp_all [subjectTypeText]

end Order

theorem Spelling.trim_padded (h : Spelling env) {text padded : String}
    (hpadded : Padded text.toList padded.toList) : env.trim padded = env.trim text := by
  rw [h.trim, h.trim, Text.trim_padded hpadded]

theorem Spelling.trim_trim (h : Spelling env) (text : String) :
    env.trim (env.trim text) = env.trim text := by
  simp only [h.trim, String.toList_ofList, Text.trim_trim]

theorem Spelling.normalizeReassignment (h : Spelling env) (item : Reassignment) :
    normalizeReassignment env (normalizeReassignment env item) = normalizeReassignment env item := by
  simp only [Operations.normalizeReassignment, h.trim_trim]
  rw [← h.toLowerCase_trim, h.trim_trim, h.toLowerCase_toLowerCase]

/-- Normalization throws, or it returns a manifest. -/
theorem normalizeRepairManifest_cases (env : Environment) (manifest : RepairManifest) :
    (∃ error, normalizeRepairManifest env manifest = throw error) ∨
      ∃ normalized, normalizeRepairManifest env manifest = pure normalized := by
  rw [normalizeRepairManifest]
  split
  · exact .inl ⟨_, rfl⟩
  · split
    · exact .inl ⟨_, rfl⟩
    · exact .inr ⟨_, rfl⟩

theorem normalized_idempotent [Std.TransCmp env.localeCompare] (h : Spelling env)
    {normalized : RepairManifest} (hnormalized : normalizeRepairManifest env manifest = pure normalized) :
    normalizeRepairManifest env normalized = pure normalized := by
  obtain ⟨hfilled, rfl⟩ := normalizeRepairManifest_eq_pure.mp hnormalized
  have hitems : ((manifest.reassignments.map (normalizeReassignment env)).insertionSort
      (subjectPrecedes env · · = true)).map (normalizeReassignment env) =
        (manifest.reassignments.map (normalizeReassignment env)).insertionSort
          (subjectPrecedes env · · = true) := by
    refine (List.map_congr_left fun item hitem => ?_).trans (List.map_id _)
    rw [List.mem_insertionSort, List.mem_map] at hitem
    obtain ⟨item, -, rfl⟩ := hitem
    exact h.normalizeReassignment item
  have hsorted := (List.pairwise_insertionSort (subjectPrecedes env · · = true)
    (manifest.reassignments.map (normalizeReassignment env))).insertionSort_eq
  have hretained : (manifest.retainedSubject.map fun subject =>
      { subject with subjectId := env.trim subject.subjectId }).map (fun subject =>
        { subject with subjectId := env.trim subject.subjectId }) =
      manifest.retainedSubject.map fun subject =>
        { subject with subjectId := env.trim subject.subjectId } := by
    cases manifest.retainedSubject with
    | none => rfl
    | some subject => simp only [Option.map_some, h.trim_trim]
  refine normalizeRepairManifest_eq_pure.mpr ⟨⟨?_, ?_, fun item hitem => ?_⟩, ?_⟩
  · rw [h.trim_trim]
    exact hfilled.conflictId
  · intro hnil
    have hlength := congrArg List.length hnil
    rw [List.length_insertionSort, List.length_map] at hlength
    exact hfilled.reassignments (List.length_eq_zero_iff.mp hlength)
  · rw [List.mem_insertionSort, List.mem_map] at hitem
    obtain ⟨item, hitem, rfl⟩ := hitem
    have hid := congrArg (·.subjectId) (h.normalizeReassignment item)
    have hnew := congrArg (·.newIdentifier) (h.normalizeReassignment item)
    obtain ⟨hfilledId, hfilledNew⟩ := hfilled.items item hitem
    exact ⟨fun hblank => hfilledId (hid.symm.trans hblank),
      fun hblank => hfilledNew (hnew.symm.trans hblank)⟩
  · simp only [hitems, hsorted, hretained, h.trim_trim]

/-- Manifests whose texts are normalized alike, in any order, are normalized alike. -/
theorem normalizeRepairManifest_congr (hconflict : env.trim manifest.conflictId = env.trim manifest'.conflictId)
    (hretained : manifest.retainedSubject.map (fun subject =>
      { subject with subjectId := env.trim subject.subjectId }) =
        manifest'.retainedSubject.map fun subject =>
          { subject with subjectId := env.trim subject.subjectId })
    (hitems : (manifest.reassignments.map (normalizeReassignment env)).insertionSort
      (subjectPrecedes env · · = true) =
        (manifest'.reassignments.map (normalizeReassignment env)).insertionSort
          (subjectPrecedes env · · = true)) :
    normalizeRepairManifest env manifest = normalizeRepairManifest env manifest' := by
  rw [normalizeRepairManifest, normalizeRepairManifest, hconflict, hretained, hitems]

end Normalization

section Canonicalization

variable (env : Environment) (manifest : RepairManifest)

def canonicalizeRepairManifest : Handler String := do
  let normalized ← normalizeRepairManifest env manifest
  MonadExcept.ofExcept ((canonicalJson numeral (manifestData normalized)).map String.ofList)

/-- The canonical JSON of the manifest that an object is. -/
def canonicalizeObject (value : PlainData ν) : Option (Handler String) :=
  (readManifest value).map (canonicalizeRepairManifest numeral env)

/-- The reassignments are of different subjects, once their ids are trimmed. -/
def Distinct : Prop :=
  (manifest.reassignments.map fun item => (item.subjectType, env.trim item.subjectId)).Nodup

instance : Decidable (Distinct env manifest) := inferInstanceAs (Decidable (List.Nodup _))

/-- The same text in other white space. -/
def Respaced (text text' : String) : Prop :=
  ∃ core : Text, Padded core text.toList ∧ Padded core text'.toList

/-- The same text in other white space and with other letter case. -/
def Respelled (text text' : String) : Prop :=
  ∃ core core' : String, env.toLowerCase core = env.toLowerCase core' ∧
    Padded core.toList text.toList ∧ Padded core'.toList text'.toList

/-- One manifest is the other in other white space and with other letter case of identifiers. -/
structure SpelledApart (manifest' : RepairManifest) : Prop where
  conflictId : Respaced manifest.conflictId manifest'.conflictId
  retainedSubject : Option.Rel (fun subject subject' => subject.subjectType = subject'.subjectType ∧
    Respaced subject.subjectId subject'.subjectId) manifest.retainedSubject manifest'.retainedSubject
  reassignments : List.Forall₂ (fun item item' => item.subjectType = item'.subjectType ∧
    Respaced item.subjectId item'.subjectId ∧
    Respelled env item.newIdentifier item'.newIdentifier) manifest.reassignments manifest'.reassignments

variable {env} {manifest} {manifest' : RepairManifest}

theorem canonicalizeRepairManifest_eq_pure {text : String} :
    canonicalizeRepairManifest numeral env manifest = pure text ↔
      ∃ normalized, normalizeRepairManifest env manifest = pure normalized ∧
        text = String.ofList (manifestText normalized) := by
  have hofExcept : ∀ normalized, (MonadExcept.ofExcept ((canonicalJson numeral
      (manifestData normalized)).map String.ofList) : Handler String) =
        pure (String.ofList (manifestText normalized)) := by
    intro normalized
    rw [canonicalJson_manifest]
    rfl
  rw [canonicalizeRepairManifest, bind_eq_pure]
  simp only [hofExcept, pure_inj, eq_comm]

/-- Manifests with one canonical JSON have one normalized form. -/
theorem normalized_eq_of_canonical {text : String}
    (h : canonicalizeRepairManifest numeral env manifest = pure text)
    (h' : canonicalizeRepairManifest numeral env manifest' = pure text) :
    normalizeRepairManifest env manifest = normalizeRepairManifest env manifest' := by
  obtain ⟨normalized, hnormalized, rfl⟩ := (canonicalizeRepairManifest_eq_pure numeral).mp h
  obtain ⟨normalized', hnormalized', heq⟩ := (canonicalizeRepairManifest_eq_pure numeral).mp h'
  rw [hnormalized, hnormalized',
    manifestText_selfDelimiting.injective (String.ofList_injective heq)]

/-- The text that the repair service hashes. -/
theorem canonicalJson_eq (hstringify : ∀ text, env.stringify text = String.ofList (stringText text))
    (manifest : RepairManifest) :
    Operations.canonicalJson env manifest = String.ofList (manifestText manifest) := by
  have hreassignment : ∀ item, canonicalReassignment env item =
      String.ofList (reassignmentText item) := by
    intro item
    -- the keys stand in order in both texts
    simp [← String.toList_inj, canonicalReassignment, canonicalObject, hstringify,
      reassignmentText, propertyText, typeText]
  have hsubject : ∀ subject, canonicalSubject env subject = String.ofList (subjectText subject) := by
    intro subject
    simp [← String.toList_inj, canonicalSubject, canonicalObject, hstringify, subjectText,
      propertyText, typeText]
  obtain ⟨conflictId, retained, reassignments⟩ := manifest
  have hitems : reassignments.map (String.toList ∘ canonicalReassignment env) =
      reassignments.map reassignmentText := List.map_congr_left fun item _ => by
    rw [Function.comp_apply, hreassignment, String.toList_ofList]
  cases retained <;>
    simp [← String.toList_inj, Operations.canonicalJson, canonicalObject, hstringify, hsubject,
      hitems, manifestText, propertyText, retainedText, listed]

theorem Respaced.trim (h : Spelling env) {text text' : String} (hspaced : Respaced text text') :
    env.trim text = env.trim text' := by
  obtain ⟨core, hcore, hcore'⟩ := hspaced
  rw [h.trim, h.trim, Text.trim_padded hcore, Text.trim_padded hcore']

theorem Respelled.toLowerCase (h : Spelling env) {text text' : String}
    (hspelled : Respelled env text text') :
    env.toLowerCase (env.trim text) = env.toLowerCase (env.trim text') := by
  obtain ⟨core, core', hcase, hcore, hcore'⟩ := hspelled
  rw [h.trim_padded hcore, h.trim_padded hcore', h.toLowerCase_trim, h.toLowerCase_trim, hcase]

theorem SpelledApart.normalizeRepairManifest (h : Spelling env)
    (hapart : SpelledApart env manifest manifest') :
    normalizeRepairManifest env manifest = normalizeRepairManifest env manifest' := by
  obtain ⟨hconflict, hretained, hreassignments⟩ := hapart
  refine normalizeRepairManifest_congr (hconflict.trim h) ?_ ?_
  · obtain ⟨conflictId, retained, reassignments⟩ := manifest
    obtain ⟨conflictId', retained', reassignments'⟩ := manifest'
    cases hretained with
    | none => rfl
    | some hsubject => rw [Option.map_some, Option.map_some, hsubject.1, hsubject.2.trim h]
  · have hitems : List.Forall₂ (· = ·) (manifest.reassignments.map (normalizeReassignment env))
        (manifest'.reassignments.map (normalizeReassignment env)) := by
      rw [List.forall₂_map_left_iff, List.forall₂_map_right_iff]
      refine hreassignments.imp fun item item' hitem => ?_
      obtain ⟨htype, hid, hnew⟩ := hitem
      rw [normalizeReassignment, normalizeReassignment, htype, hid.trim h, hnew.toLowerCase h]
    rw [List.forall₂_eq_eq_eq] at hitems
    rw [hitems]

theorem normalizeRepairManifest_perm [Std.TransCmp env.localeCompare]
    [Std.LawfulEqCmp env.localeCompare] (hdistinct : Distinct env manifest)
    {reassignments : List Reassignment} (hperm : manifest.reassignments.Perm reassignments) :
    normalizeRepairManifest env { manifest with reassignments := reassignments } =
      normalizeRepairManifest env manifest := by
  refine normalizeRepairManifest_congr rfl rfl (PlainData.insertionSort_perm
    (·.toAuthIdentifierSubjectReference) (fun _ _ => subject_eq_of_precedes) ?_ (hperm.map _)).symm
  rw [List.map_map]
  refine List.Nodup.of_map (fun subject => (subject.subjectType, subject.subjectId)) ?_
  rwa [List.map_map]

/-- The canonical form of a manifest: normalizing again changes nothing, the canonical JSON does
not depend on how the manifest is written down, and it determines the normalized form. -/
theorem canonicalized_exactly [Std.TransCmp env.localeCompare] [Std.LawfulEqCmp env.localeCompare]
    (h : Spelling env) :
    (∀ manifest, (normalizeRepairManifest env manifest >>= normalizeRepairManifest env) =
      normalizeRepairManifest env manifest) ∧
    (∀ manifest reassignments, Distinct env manifest → manifest.reassignments.Perm reassignments →
      canonicalizeRepairManifest numeral env { manifest with reassignments := reassignments } =
        canonicalizeRepairManifest numeral env manifest) ∧
    (∀ value value', PlainData.Reordered value value' →
      canonicalJson numeral value = canonicalJson numeral value' ∧
        canonicalizeObject numeral env value = canonicalizeObject numeral env value') ∧
    (∀ manifest manifest', SpelledApart env manifest manifest' →
      canonicalizeRepairManifest numeral env manifest =
        canonicalizeRepairManifest numeral env manifest') ∧
    (∀ manifest manifest' text, canonicalizeRepairManifest numeral env manifest = pure text →
      canonicalizeRepairManifest numeral env manifest' = pure text →
      normalizeRepairManifest env manifest = normalizeRepairManifest env manifest') := by
  refine ⟨fun manifest => ?_, fun manifest reassignments hdistinct hperm => ?_,
    fun value value' hvalue => ?_, fun manifest manifest' hapart => ?_,
    fun manifest manifest' text => normalized_eq_of_canonical numeral⟩
  · rcases normalizeRepairManifest_cases env manifest with ⟨error, herror⟩ | ⟨n, hn⟩
    · rw [herror]
      rfl
    · rw [hn]
      exact normalized_idempotent h hn
  · rw [canonicalizeRepairManifest, canonicalizeRepairManifest,
      normalizeRepairManifest_perm hdistinct hperm]
  · refine ⟨canonicalJson_blind numeral hvalue, ?_⟩
    rw [canonicalizeObject, canonicalizeObject, readManifest_blind hvalue]
  · rw [canonicalizeRepairManifest, canonicalizeRepairManifest, hapart.normalizeRepairManifest h]

section Examples

/-- A deployment that orders ids by their characters. -/
def spelling : Environment :=
  { deployment with
    trim := fun text => String.ofList (Text.trim text.toList)
    localeCompare := compare }

theorem spelling_spelling : Spelling spelling where
  trim _ := rfl
  toLowerCase_toLowerCase _ := rfl
  toLowerCase_trim _ := rfl

instance : Std.TransCmp spelling.localeCompare := inferInstanceAs (Std.TransOrd String)

instance : Std.LawfulEqCmp spelling.localeCompare := inferInstanceAs (Std.LawfulEqOrd String)

/-- Two members, and white space around the id of the first. -/
def spaced : RepairManifest where
  conflictId := "c00000000000000000000000"
  retainedSubject := some ⟨.staff, "b0"⟩
  reassignments := [⟨⟨.member, " a2"⟩, "olivia@library.test"⟩, ⟨⟨.member, "a1"⟩, "ada@library.test "⟩]

/-- One member twice, with and without white space around the id. -/
def doubled : RepairManifest where
  conflictId := "c00000000000000000000000"
  retainedSubject := none
  reassignments := [⟨⟨.member, " a1"⟩, "olivia"⟩, ⟨⟨.member, "a1"⟩, "ada"⟩]

/-- Its reassignments in the other order. -/
def doubledBack : RepairManifest :=
  { doubled with reassignments := doubled.reassignments.reverse }

def decimal (value : ℕ) : Option Text := some (Nat.toDigits 10 value)

/-- White space may be all that tells two subjects apart, and then their order shows. -/
theorem canonicalized_order_shows :
    ¬ ∀ (env : Environment) [Std.TransCmp env.localeCompare] [Std.LawfulEqCmp env.localeCompare],
      Spelling env → ∀ (manifest : RepairManifest) (reassignments : List Reassignment),
        (manifest.reassignments.map fun item => (item.subjectType, item.subjectId)).Nodup →
        manifest.reassignments.Perm reassignments →
        canonicalizeRepairManifest decimal env { manifest with reassignments := reassignments } =
          canonicalizeRepairManifest decimal env manifest := by
  intro hall
  have heq : canonicalizeRepairManifest decimal spelling doubledBack =
      canonicalizeRepairManifest decimal spelling doubled :=
    hall spelling spelling_spelling doubled doubled.reassignments.reverse (by decide)
      (List.reverse_perm _).symm
  have hdoubled : normalizeRepairManifest spelling doubled = pure { doubled with
    reassignments := [⟨⟨.member, "a1"⟩, "olivia"⟩, ⟨⟨.member, "a1"⟩, "ada"⟩] } := rfl
  have hback : normalizeRepairManifest spelling doubledBack = pure { doubled with
    reassignments := [⟨⟨.member, "a1"⟩, "ada"⟩, ⟨⟨.member, "a1"⟩, "olivia"⟩] } := rfl
  have hcanonical := (canonicalizeRepairManifest_eq_pure decimal).mpr ⟨_, hdoubled, rfl⟩
  have hnormalized := normalized_eq_of_canonical decimal (heq.trans hcanonical) hcanonical
  rw [hdoubled, hback, pure_inj] at hnormalized
  exact absurd hnormalized (by decide)

theorem canonicalized_exactly_spaced :
    canonicalizeRepairManifest decimal spelling
        { spaced with reassignments := spaced.reassignments.reverse } =
      canonicalizeRepairManifest decimal spelling spaced ∧
    (normalizeRepairManifest spelling spaced >>= normalizeRepairManifest spelling) =
      normalizeRepairManifest spelling spaced := by
  obtain ⟨hidempotent, hperm, -⟩ := canonicalized_exactly decimal spelling_spelling
  exact ⟨hperm spaced _ (by decide) (List.reverse_perm _).symm, hidempotent spaced⟩

end Examples

end Canonicalization

end AuthIdentifierRepairManifest

end Operations
