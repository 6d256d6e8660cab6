import BookLibrary.Quality.MutationGate
import Mathlib.Data.List.Forall2

/-!
# Candidates for the manifest

The critical rules name lines of files that change. A candidate is the manifest with its rules
taken to the lines where their anchors are now. The command that writes a candidate gives the
manifest with the same rules that the check accepts over the files as they are now.
-/

namespace Quality

open Text

/-- How two identifiers are ordered. -/
structure Collation where
  localeCompare : String → String → ℤ
  total : ∀ a b, localeCompare a b ≤ 0 ∨ localeCompare b a ≤ 0
  trans : ∀ a b c, localeCompare a b ≤ 0 → localeCompare b c ≤ 0 → localeCompare a c ≤ 0

section Order

/-! ### The order of the rules -/

/-- `SELECTED_SOURCES.indexOf` -/
def sourceIndex (source : String) : ℤ :=
  if source ∈ SELECTED_SOURCES then SELECTED_SOURCES.idxOf source else -1

variable (order : Collation)

def compareRules (left right : CriticalRule) : ℤ :=
  let sourceDifference := sourceIndex left.source - sourceIndex right.source
  let startDifference : ℤ := left.startLine - right.startLine
  let endDifference : ℤ := left.endLine - right.endLine
  if sourceDifference ≠ 0 then sourceDifference
  else if startDifference ≠ 0 then startDifference
  else if endDifference ≠ 0 then endDifference
  else order.localeCompare left.id right.id

def assertManifestOrder (manifest : CriticalManifest) : Except String Unit :=
  let sorted := manifest.rules.mergeSort fun left right => compareRules order left right ≤ 0
  failIf (sorted ≠ manifest.rules)
    "manifest rules must be ordered by selected source, start line, end line, and id."

end Order

section Candidate

/-! ### The candidate -/

def requireCandidateRule (rule : CriticalRule) (index : ℕ) : Except String Unit := do
  let label := "manifest.rules[" ++ toString index ++ "]"
  failIf (rule.source ∉ SELECTED_SOURCES) (label ++ ".source is not selected.")
  [("id", rule.id), ("invariant", rule.invariant), ("startAnchor", rule.startAnchor),
    ("endAnchor", rule.endAnchor)].forM fun (field, value) =>
      failIf (trim value.toList = []) (label ++ "." ++ field ++ " must be non-empty.")
  failIf (rule.startLine < 1 ∨ rule.endLine < rule.startLine)
    (label ++ " has an invalid inclusive range.")

/-- The numbers of the lines that are the anchor. -/
def anchorLines (lines : List Text) (anchor : Text) : List ℕ :=
  ((lines.zipIdx 1).filter (·.1 = anchor)).map Prod.snd

def uniqueAnchorLine (lines : List Text) (anchor label : String) : Except String ℕ :=
  match anchorLines lines anchor.toList with
  | [] => throw (label ++ " is missing from its source.")
  | [line] => return line
  | _ => throw (label ++ " is not unique.")

variable (env : PolicyEnvironment) (order : Collation)

def candidateRule (rule : CriticalRule) (index : ℕ) (sourceText : String) :
    Except String CriticalRule := do
  let label := "manifest.rules[" ++ toString index ++ "]"
  requireCandidateRule rule index
  let lines := splitLines sourceText.toList
  let startLine ← uniqueAnchorLine lines rule.startAnchor (label ++ ".startAnchor")
  let endLine ← uniqueAnchorLine lines rule.endAnchor (label ++ ".endAnchor")
  failIf (endLine < startLine) (label ++ " anchors are out of order.")
  return { rule with
    sourceSha256 := sourceSha256 env sourceText
    startLine := startLine
    endLine := endLine }

def buildCandidate (manifest : CriticalManifest) (sourceByPath : String → String) :
    Except String CriticalManifest := do
  failIf (manifest.schemaVersion ≠ 1 ∨ manifest.rules = [])
    "manifest must be a non-empty schema-version-1 object."
  assertManifestOrder order manifest
  let rules ← manifest.rules.zipIdx.mapM fun entry =>
    candidateRule env entry.1 entry.2 (sourceByPath entry.1.source)
  let candidate : CriticalManifest := { schemaVersion := 1, rules := rules }
  assertManifestOrder order candidate
  validateCriticalManifest env candidate sourceByPath
  return candidate

/-- What `--check` does with the documents and the files. -/
def check (manifest : CriticalManifest) (allowlist : EquivalentAllowlist)
    (sourceByPath : String → String) (nowIso : String) : Except String Unit := do
  validateCriticalManifest env manifest sourceByPath
  assertManifestOrder order manifest
  validateEquivalentAllowlist env allowlist manifest nowIso

/-- The candidate that `--candidate` writes. -/
def writeCandidate (manifest : CriticalManifest) (allowlist : EquivalentAllowlist)
    (sourceByPath : String → String) (nowIso : String) : Except String CriticalManifest := do
  let candidate ← buildCandidate env order manifest sourceByPath
  validateEquivalentAllowlist env allowlist candidate nowIso
  return candidate

end Candidate

section Sorting

/-! ### Rules in order -/

variable (order : Collation)

theorem compareRules_total (left right : CriticalRule) :
    compareRules order left right ≤ 0 ∨ compareRules order right left ≤ 0 := by
  have hids := order.total left.id right.id
  simp only [compareRules]
  split_ifs <;> omega

theorem compareRules_trans {a b c : CriticalRule} (hab : compareRules order a b ≤ 0)
    (hbc : compareRules order b c ≤ 0) : compareRules order a c ≤ 0 := by
  have hids := order.trans a.id b.id c.id
  simp only [compareRules] at hab hbc ⊢
  split_ifs at hab hbc ⊢ <;> omega

/-- No rule comes before a rule that is ordered before it. -/
def Ordered (manifest : CriticalManifest) : Prop :=
  manifest.rules.Pairwise fun left right => compareRules order left right ≤ 0

variable {order} in
/-- A list that sorting does not change is one whose items are in order. -/
theorem assertManifestOrder_eq_ok {manifest : CriticalManifest} {u : Unit} :
    assertManifestOrder order manifest = .ok u ↔ Ordered order manifest := by
  have hpairwise : manifest.rules.Pairwise
      (fun left right => decide (compareRules order left right ≤ 0) = true) ↔
      Ordered order manifest := by
    simp only [Ordered, decide_eq_true_eq]
  rw [assertManifestOrder, failIf_eq_ok, not_not, ← hpairwise]
  constructor
  · intro hsorted
    have htrans : ∀ a b c, decide (compareRules order a b ≤ 0) = true →
        decide (compareRules order b c ≤ 0) = true → decide (compareRules order a c ≤ 0) = true := by
      simp only [decide_eq_true_eq]
      exact fun a b c => compareRules_trans order
    have htotal : ∀ a b, (decide (compareRules order a b ≤ 0) ||
        decide (compareRules order b a ≤ 0)) = true := by
      simpa using compareRules_total order
    have hall := List.pairwise_mergeSort htrans htotal manifest.rules
    rwa [hsorted] at hall
  · exact List.mergeSort_of_pairwise

end Sorting

section Anchors

/-! ### Anchors -/

theorem mem_anchorLines {lines : List Text} {anchor : Text} {line : ℕ} :
    line ∈ anchorLines lines anchor ↔ 1 ≤ line ∧ lines[line - 1]? = some anchor := by
  simp only [anchorLines, List.mem_map, List.mem_filter, decide_eq_true_eq, Prod.exists]
  constructor
  · rintro ⟨_, _, ⟨hmem, rfl⟩, rfl⟩
    exact List.mk_mem_zipIdx_iff_le_and_getElem?_sub.mp hmem
  · intro h
    exact ⟨anchor, line, ⟨List.mk_mem_zipIdx_iff_le_and_getElem?_sub.mpr h, rfl⟩, rfl⟩

theorem length_anchorLines (lines : List Text) (anchor : Text) :
    (anchorLines lines anchor).length = lines.count anchor := by
  have hfst : (lines.zipIdx 1).map Prod.fst = lines := List.zipIdx_map_fst 1 lines
  calc (anchorLines lines anchor).length
      = (lines.zipIdx 1).countP (·.1 = anchor) := by
        rw [anchorLines, List.length_map, List.countP_eq_length_filter]
    _ = ((lines.zipIdx 1).map Prod.fst).count anchor := by
        rw [List.count, List.countP_map]
        exact List.countP_congr fun line _ => by simp
    _ = lines.count anchor := by rw [hfst]

/-- The line is the anchor, and no other line of the text is. -/
structure AnchoredAt (lines : List Text) (anchor : Text) (line : ℕ) : Prop where
  positive : 1 ≤ line
  matched : lines[line - 1]? = some anchor
  unique : lines.count anchor = 1

theorem AnchoredAt.le_length {lines : List Text} {anchor : Text} {line : ℕ}
    (h : AnchoredAt lines anchor line) : line ≤ lines.length := by
  have hlt := (List.getElem?_eq_some_iff.mp h.matched).1
  omega

theorem uniqueAnchorLine_eq_ok {lines : List Text} {anchor label : String} {line : ℕ} :
    uniqueAnchorLine lines anchor label = .ok line ↔ AnchoredAt lines anchor.toList line := by
  have hmem := @mem_anchorLines lines anchor.toList line
  have hlength := length_anchorLines lines anchor.toList
  rw [uniqueAnchorLine]
  constructor
  · intro h
    split at h
    · cases h
    · rename_i found hfound
      cases h
      rw [hfound] at hmem hlength
      obtain ⟨hpositive, hmatched⟩ := hmem.mp List.mem_cons_self
      exact ⟨hpositive, hmatched, hlength.symm⟩
    · cases h
  · rintro ⟨hpositive, hmatched, hunique⟩
    rw [hunique, List.length_eq_one_iff] at hlength
    obtain ⟨found, hfound⟩ := hlength
    rw [hfound, List.mem_singleton] at hmem
    rw [hfound, hmem.mpr ⟨hpositive, hmatched⟩]
    rfl

end Anchors

section Rules

/-! ### The rules of a candidate -/

variable {env : PolicyEnvironment}

/-- The two rules differ in the hash and in the range only. -/
def SameRule (rule moved : CriticalRule) : Prop :=
  moved = { rule with
    sourceSha256 := moved.sourceSha256
    startLine := moved.startLine
    endLine := moved.endLine }

/-- A range of lines is one of at least one line. -/
def CriticalRule.Ranged (rule : CriticalRule) : Prop :=
  1 ≤ rule.startLine ∧ rule.startLine ≤ rule.endLine

/-- What the check asks of a rule by itself. -/
structure CriticalRule.Shaped (rule : CriticalRule) : Prop where
  id : trim rule.id.toList ≠ []
  invariant : trim rule.invariant.toList ≠ []
  tracked : ∃ label, requireTrackedPath rule.source label = .ok ()
  selected : rule.source ∈ SELECTED_SOURCES
  sha256 : isSha256 rule.sourceSha256 = true
  ranged : rule.Ranged
  startAnchor : trim rule.startAnchor.toList ≠ []
  endAnchor : trim rule.endAnchor.toList ≠ []

/-- Whether a path is tracked does not depend on the name of its field. -/
theorem requireTrackedPath_label {value label label' : String} :
    requireTrackedPath value label = .ok () ↔ requireTrackedPath value label' = .ok () := by
  simp only [requireTrackedPath, requireNonEmptyString, bind_eq_ok, failIf_eq_ok]

theorem validateRuleShape_eq_ok {rule : CriticalRule} {index : ℕ} {u : Unit} :
    validateRuleShape rule index = .ok u ↔ rule.Shaped := by
  simp only [validateRuleShape, requireNonEmptyString, requireSha256, bind_eq_ok, failIf_eq_ok,
    not_not, Bool.not_eq_false]
  constructor
  · rintro ⟨_, hid, _, hinvariant, _, htracked, _, hselected, _, hsha256, _, hstart, _, hend, _,
      hrange, _, hstartAnchor, hendAnchor⟩
    exact ⟨hid, hinvariant, ⟨_, htracked⟩, hselected, hsha256, ⟨by omega, by omega⟩, hstartAnchor,
      hendAnchor⟩
  · rintro ⟨hid, hinvariant, ⟨_, htracked⟩, hselected, hsha256, ⟨hstart, hrange⟩, hstartAnchor,
      hendAnchor⟩
    exact ⟨(), hid, (), hinvariant, (), requireTrackedPath_label.mp htracked, (), hselected, (),
      hsha256, (), by omega, (), by omega, (), by omega, (), hstartAnchor, hendAnchor⟩

theorem requireCandidateRule_eq_ok {rule : CriticalRule} {index : ℕ} :
    requireCandidateRule rule index = .ok () ↔ rule.source ∈ SELECTED_SOURCES ∧
      (trim rule.id.toList ≠ [] ∧ trim rule.invariant.toList ≠ [] ∧
        trim rule.startAnchor.toList ≠ [] ∧ trim rule.endAnchor.toList ≠ []) ∧ rule.Ranged := by
  simp only [requireCandidateRule, List.forM_eq_forM, List.forM_cons, List.forM_nil, bind_eq_ok,
    failIf_eq_ok, not_not, CriticalRule.Ranged]
  constructor
  · rintro ⟨_, hselected, _, ⟨_, hid, _, hinvariant, _, hstart, _, hend, -⟩, hrange⟩
    exact ⟨hselected, ⟨hid, hinvariant, hstart, hend⟩, by omega, by omega⟩
  · rintro ⟨hselected, ⟨hid, hinvariant, hstart, hend⟩, hpositive, hrange⟩
    exact ⟨(), hselected, (), ⟨(), hid, (), hinvariant, (), hstart, (), hend, rfl⟩, by omega⟩

theorem validateRuleSource_eq_ok {rule : CriticalRule} {text : String} {index : ℕ}
    (hrange : rule.Ranged) :
    validateRuleSource env rule text index = .ok () ↔
      rule.sourceSha256 = sourceSha256 env text ∧
        AnchoredAt (splitLines text.toList) rule.startAnchor.toList rule.startLine ∧
        AnchoredAt (splitLines text.toList) rule.endAnchor.toList rule.endLine := by
  obtain ⟨hpositive, hrange⟩ := hrange
  simp only [validateRuleSource, bind_eq_ok, failIf_eq_ok, not_not]
  constructor
  · rintro ⟨_, hhash, _, -, _, hstart, _, hend, _, hstartUnique, hendUnique⟩
    exact ⟨hhash.symm, ⟨hpositive, hstart, hstartUnique⟩, ⟨by omega, hend, hendUnique⟩⟩
  · rintro ⟨hhash, hstart, hend⟩
    exact ⟨(), hhash.symm, (), not_lt.mpr hend.le_length, (), hstart.matched, (), hend.matched, (),
      hstart.unique, hend.unique⟩

/-- A rule is taken to the range between its anchors, and the check accepts it there. -/
theorem candidateRule_eq_ok {rule moved : CriticalRule} {index : ℕ} {text : String} :
    candidateRule env rule index text = .ok moved ↔ requireCandidateRule rule index = .ok () ∧
      SameRule rule moved ∧ moved.Ranged ∧ validateRuleSource env moved text index = .ok () := by
  simp only [candidateRule, bind_eq_ok, failIf_eq_ok, uniqueAnchorLine_eq_ok]
  constructor
  · rintro ⟨_, hrule, startLine, hstart, endLine, hend, _, hrange, hreturn⟩
    cases hreturn
    have hranged : startLine ≤ endLine := Nat.not_lt.mp hrange
    exact ⟨hrule, rfl, ⟨hstart.positive, hranged⟩,
      (validateRuleSource_eq_ok ⟨hstart.positive, hranged⟩).mpr ⟨rfl, hstart, hend⟩⟩
  · rintro ⟨hrule, hsame, hranged, hsource⟩
    obtain ⟨hhash, hstart, hend⟩ := (validateRuleSource_eq_ok hranged).mp hsource
    rw [hsame] at hstart hend
    refine ⟨(), hrule, moved.startLine, hstart, moved.endLine, hend, (), not_lt.mpr hranged.2, ?_⟩
    rw [← hhash]
    exact congrArg Except.ok hsame.symm

end Rules

section Exact

/-! ### What a candidate is -/

theorem mapM_eq_ok {α β : Type} {f : α → Except String β} {items : List α} {results : List β} :
    items.mapM f = .ok results ↔ List.Forall₂ (fun item result => f item = .ok result) items results := by
  induction items generalizing results with
  | nil =>
    rw [List.mapM_nil, List.forall₂_nil_left_iff]
    constructor
    · rintro ⟨⟩
      rfl
    · rintro rfl
      rfl
  | cons item items ih =>
    rw [List.mapM_cons, bind_eq_ok, List.forall₂_cons_left_iff]
    constructor
    · rintro ⟨result, hresult, h⟩
      obtain ⟨rest, hrest, hreturn⟩ := bind_eq_ok.mp h
      cases hreturn
      exact ⟨result, rest, hresult, ih.mp hrest, rfl⟩
    · rintro ⟨result, rest, hresult, hrest, rfl⟩
      exact ⟨result, hresult, bind_eq_ok.mpr ⟨rest, ih.mpr hrest, rfl⟩⟩

variable {env : PolicyEnvironment} {order : Collation}

theorem rule_of_validate {manifest : CriticalManifest} {sourceByPath : String → String}
    (h : validateCriticalManifest env manifest sourceByPath = .ok ()) {rule : CriticalRule}
    (hrule : rule ∈ manifest.rules) :
    rule.Shaped ∧ ∃ index, validateRuleSource env rule (sourceByPath rule.source) index = .ok () := by
  simp only [validateCriticalManifest, validateManifestShape, bind_eq_ok] at h
  obtain ⟨_, ⟨_, _, _, _, _, hrules, _⟩, hsources⟩ := h
  obtain ⟨before, hcheck⟩ := of_checkEach hrules hrule
  obtain ⟨_, hshape, -⟩ := bind_eq_ok.mp hcheck
  obtain ⟨before', hsource⟩ := of_checkEach hsources hrule
  exact ⟨validateRuleShape_eq_ok.mp hshape, _, hsource⟩

theorem SameRule.candidate_ok {rule moved : CriticalRule} {text : String} {index index' : ℕ}
    (h : SameRule rule moved) (hrange : rule.Ranged) (hshape : moved.Shaped)
    (hsource : validateRuleSource env moved text index = .ok ()) :
    candidateRule env rule index' text = .ok moved := by
  refine candidateRule_eq_ok.mpr ⟨?_, h, hshape.ranged, ?_⟩
  · obtain ⟨hid, hinvariant, -, hselected, -, -, hstart, hend⟩ := hshape
    rw [h] at hid hinvariant hselected hstart hend
    exact requireCandidateRule_eq_ok.mpr ⟨hselected, ⟨hid, hinvariant, hstart, hend⟩, hrange⟩
  · -- the index of a rule is for the messages only
    rw [validateRuleSource_eq_ok hshape.ranged] at hsource ⊢
    exact hsource

/-- The rules that are taken to their anchors are the rules of the manifest. -/
theorem candidateRules_eq_ok {rules moved : List CriticalRule} {sourceByPath : String → String}
    (hmoved : ∀ rule ∈ moved,
      rule.Shaped ∧ ∃ index, validateRuleSource env rule (sourceByPath rule.source) index = .ok ()) :
    (rules.zipIdx.mapM fun entry =>
      candidateRule env entry.1 entry.2 (sourceByPath entry.1.source)) = .ok moved ↔
        (∀ rule ∈ rules, rule.Ranged) ∧ List.Forall₂ SameRule rules moved := by
  have hfst : rules.zipIdx.map Prod.fst = rules := List.zipIdx_map_fst 0 rules
  rw [mapM_eq_ok, ← List.forall₂_and_left]
  conv_rhs => rw [← hfst]
  rw [List.forall₂_map_left_iff]
  constructor
  · refine List.Forall₂.imp fun entry moved h => ?_
    obtain ⟨hrule, hsame, -⟩ := candidateRule_eq_ok.mp h
    exact ⟨(requireCandidateRule_eq_ok.mp hrule).2.2, hsame⟩
  · intro h
    have hall := ((List.forall₂_and_left moved _).mpr ⟨hmoved, h.flip⟩).flip
    refine hall.imp fun entry moved h => ?_
    obtain ⟨⟨hshape, index, hsource⟩, hrange, hsame⟩ := h
    have hfile : moved.source = entry.1.source := by rw [hsame]
    rw [hfile] at hsource
    exact hsame.candidate_ok hrange hshape hsource

theorem buildCandidate_eq_ok {manifest candidate : CriticalManifest}
    {sourceByPath : String → String} :
    buildCandidate env order manifest sourceByPath = .ok candidate ↔
      (manifest.schemaVersion = 1 ∧ (∀ rule ∈ manifest.rules, rule.Ranged) ∧
        Ordered order manifest) ∧ List.Forall₂ SameRule manifest.rules candidate.rules ∧
      Ordered order candidate ∧ validateCriticalManifest env candidate sourceByPath = .ok () := by
  simp only [buildCandidate, bind_eq_ok, failIf_eq_ok, assertManifestOrder_eq_ok, not_or, not_not]
  constructor
  · rintro ⟨_, ⟨hschema, hrules⟩, _, hordered, moved, hmoved, _, hcandidate, _, hvalid, hreturn⟩
    cases hreturn
    obtain ⟨hrange, hsame⟩ :=
      (candidateRules_eq_ok fun rule hrule => rule_of_validate hvalid hrule).mp hmoved
    exact ⟨⟨hschema, hrange, hordered⟩, hsame, hcandidate, hvalid⟩
  · rintro ⟨⟨hschema, hrange, hordered⟩, hsame, hcandidate, hvalid⟩
    obtain ⟨hversion, hnonempty⟩ : candidate.schemaVersion = 1 ∧ candidate.rules ≠ [] := by
      simp only [validateCriticalManifest, validateManifestShape, bind_eq_ok, failIf_eq_ok,
        not_not] at hvalid
      obtain ⟨_, ⟨_, hversion, _, hnonempty, -⟩, -⟩ := hvalid
      exact ⟨hversion, hnonempty⟩
    have hrules : manifest.rules ≠ [] := by
      intro hnil
      rw [hnil, List.forall₂_nil_left_iff] at hsame
      exact hnonempty hsame
    have hmoved := (candidateRules_eq_ok fun rule hrule => rule_of_validate hvalid hrule).mpr
      ⟨hrange, hsame⟩
    obtain ⟨version, rules⟩ := candidate
    cases hversion
    exact ⟨(), ⟨hschema, hrules⟩, (), hordered, rules, hmoved, (), hcandidate, (), hvalid, rfl⟩

/-- From a manifest in order, the candidate that is written is the manifest with the same rules
that the check accepts over the files. -/
theorem writeCandidate_exact (env : PolicyEnvironment) (order : Collation)
    (manifest candidate : CriticalManifest) (allowlist : EquivalentAllowlist)
    (sourceByPath : String → String) (nowIso : String) :
    writeCandidate env order manifest allowlist sourceByPath nowIso = .ok candidate ↔
      (manifest.schemaVersion = 1 ∧ (∀ rule ∈ manifest.rules, rule.Ranged) ∧
        Ordered order manifest) ∧
      List.Forall₂ SameRule manifest.rules candidate.rules ∧
      check env order candidate allowlist sourceByPath nowIso = .ok () := by
  simp only [writeCandidate, check, bind_eq_ok, buildCandidate_eq_ok, assertManifestOrder_eq_ok]
  constructor
  · rintro ⟨_, ⟨hmanifest, hsame, hordered, hvalid⟩, _, hallowlist, hreturn⟩
    cases hreturn
    exact ⟨hmanifest, hsame, (), hvalid, (), hordered, hallowlist⟩
  · rintro ⟨hmanifest, hsame, _, hvalid, _, hordered, hallowlist⟩
    exact ⟨candidate, ⟨hmanifest, hsame, hordered, hvalid⟩, (), hallowlist, rfl⟩

end Exact

end Quality
