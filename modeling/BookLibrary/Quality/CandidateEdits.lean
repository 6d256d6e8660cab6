import BookLibrary.Quality.CandidateManifest
import BookLibrary.Text.Edits
import Mathlib.Data.String.Basic

/-!
# Candidates after edits

The files are edited after the manifest was checked. As long as the edits keep the lines of the
anchors, a candidate is built, and each of its rules covers the lines that are left of those it
covered before.
-/

namespace Quality

open Text

section FileEdits

/-! ### Edits of the files -/

/-- Edits that take the files from one state to another. -/
structure FileEdits (old new : String → String) where
  edit : String → List (Edits.Step Text)
  before_edit : ∀ source ∈ SELECTED_SOURCES,
    Edits.before (edit source) = splitLines (old source).toList
  after_edit : ∀ source ∈ SELECTED_SOURCES,
    Edits.after (edit source) = splitLines (new source).toList

namespace FileEdits

variable {old new : String → String} (edits : FileEdits old new)

/-- The number that a line has after the edit of its file. -/
def line (source : String) : ℕ → Option ℕ
  | 0 => none
  | place + 1 => (Edits.move (edits.edit source) place).map (· + 1)

variable {edits}

theorem of_line {source : String} {line line' : ℕ} (h : edits.line source line = some line') :
    ∃ place place', line = place + 1 ∧ line' = place' + 1 ∧
      Edits.move (edits.edit source) place = some place' := by
  cases line with
  | zero => cases h
  | succ place =>
    obtain ⟨place', hmove, rfl⟩ := Option.map_eq_some_iff.mp h
    exact ⟨place, place', rfl, rfl, hmove⟩

theorem line_le_iff {source : String} {line line' other other' : ℕ}
    (h : edits.line source line = some line') (hother : edits.line source other = some other') :
    line ≤ other ↔ line' ≤ other' := by
  obtain ⟨place, place', rfl, rfl, hmove⟩ := of_line h
  obtain ⟨otherPlace, otherPlace', rfl, rfl, hotherMove⟩ := of_line hother
  have hle := Edits.move_le_iff hmove hotherMove
  omega

/-- An anchor that is kept anchors its new line, unless the edit made a second line like it. -/
theorem anchoredAt_line {source : String} (hsource : source ∈ SELECTED_SOURCES) {anchor : Text}
    {line line' : ℕ} (h : edits.line source line = some line')
    (hanchored : AnchoredAt (splitLines (old source).toList) anchor line)
    (hunique : (splitLines (new source).toList).count anchor = 1) :
    AnchoredAt (splitLines (new source).toList) anchor line' := by
  obtain ⟨place, place', rfl, rfl, hmove⟩ := of_line h
  obtain ⟨item, hitem, hitem'⟩ := Edits.get_of_move hmove
  rw [edits.before_edit source hsource] at hitem
  rw [edits.after_edit source hsource] at hitem'
  have hanchor : some item = some anchor := hitem.symm.trans hanchored.matched
  exact ⟨Nat.le_add_left 1 place', hitem'.trans hanchor, hunique⟩

variable (edits) in
/-- The lines of the anchors are kept, and no line that is added is like them. -/
structure Keeps (rule : CriticalRule) : Prop where
  startLine : (edits.line rule.source rule.startLine).isSome
  endLine : (edits.line rule.source rule.endLine).isSome
  startUnique : (splitLines (new rule.source).toList).count rule.startAnchor.toList = 1
  endUnique : (splitLines (new rule.source).toList).count rule.endAnchor.toList = 1

variable (env : PolicyEnvironment) (edits) in
/-- The rule where the edit takes the lines of its anchors. -/
def movedRule (rule : CriticalRule) : CriticalRule :=
  { rule with
    sourceSha256 := sourceSha256 env (new rule.source)
    startLine := (edits.line rule.source rule.startLine).getD 0
    endLine := (edits.line rule.source rule.endLine).getD 0 }

variable (env : PolicyEnvironment) {rule : CriticalRule}

theorem Keeps.startLine_eq (h : edits.Keeps rule) :
    edits.line rule.source rule.startLine = some (edits.movedRule env rule).startLine := by
  obtain ⟨line, hline⟩ := Option.isSome_iff_exists.mp h.startLine
  simp [movedRule, hline]

theorem Keeps.endLine_eq (h : edits.Keeps rule) :
    edits.line rule.source rule.endLine = some (edits.movedRule env rule).endLine := by
  obtain ⟨line, hline⟩ := Option.isSome_iff_exists.mp h.endLine
  simp [movedRule, hline]

end FileEdits

/-- The line is one of the rule's. -/
def CriticalRule.Covers (rule : CriticalRule) (line : ℕ) : Prop :=
  rule.startLine ≤ line ∧ line ≤ rule.endLine

/-- A rule covers the lines that the edit keeps of those it covered. -/
theorem FileEdits.Keeps.covers_iff {old new : String → String} {edits : FileEdits old new}
    {env : PolicyEnvironment} {rule : CriticalRule} (h : edits.Keeps rule) {line line' : ℕ}
    (hline : edits.line rule.source line = some line') :
    rule.Covers line ↔ (edits.movedRule env rule).Covers line' :=
  and_congr (line_le_iff (h.startLine_eq env) hline) (line_le_iff hline (h.endLine_eq env))

end FileEdits

section Moved

/-! ### The manifest after the edits -/

variable {env : PolicyEnvironment} {order : Collation} {old new : String → String}
  {edits : FileEdits old new} {manifest : CriticalManifest}

theorem moved_ranged {rule : CriticalRule} (hrange : rule.Ranged) (hkeeps : edits.Keeps rule) :
    (edits.movedRule env rule).Ranged := by
  obtain ⟨_, place', -, hplace, -⟩ := FileEdits.of_line (hkeeps.startLine_eq env)
  refine ⟨by omega, ?_⟩
  exact (FileEdits.line_le_iff (hkeeps.startLine_eq env) (hkeeps.endLine_eq env)).mp hrange.2

theorem moved_shaped {rule : CriticalRule} (hshape : rule.Shaped) (hkeeps : edits.Keeps rule) :
    (edits.movedRule env rule).Shaped where
  id := hshape.id
  invariant := hshape.invariant
  tracked := hshape.tracked
  selected := hshape.selected
  sha256 := env.sha256_pattern _
  ranged := moved_ranged hshape.ranged hkeeps
  startAnchor := hshape.startAnchor
  endAnchor := hshape.endAnchor

theorem moved_source {rule : CriticalRule} (hshape : rule.Shaped) (hkeeps : edits.Keeps rule)
    {index index' : ℕ} (hsource : validateRuleSource env rule (old rule.source) index = .ok ()) :
    validateRuleSource env (edits.movedRule env rule) (new rule.source) index' = .ok () := by
  obtain ⟨-, hstart, hend⟩ := (validateRuleSource_eq_ok hshape.ranged).mp hsource
  refine (validateRuleSource_eq_ok (moved_ranged hshape.ranged hkeeps)).mpr ⟨rfl, ?_, ?_⟩
  · exact FileEdits.anchoredAt_line hshape.selected (hkeeps.startLine_eq env) hstart
      hkeeps.startUnique
  · exact FileEdits.anchoredAt_line hshape.selected (hkeeps.endLine_eq env) hend
      hkeeps.endUnique

theorem sourceIndex_inj {source source' : String} (hsource : source ∈ SELECTED_SOURCES)
    (hsource' : source' ∈ SELECTED_SOURCES) (h : sourceIndex source = sourceIndex source') :
    source = source' := by
  rw [sourceIndex, sourceIndex, if_pos hsource, if_pos hsource', Int.natCast_inj] at h
  exact (List.idxOf_inj hsource).mp h

/-- Rules in order are in order after the edits. -/
theorem compareRules_moved {left right : CriticalRule} (hleft : left.source ∈ SELECTED_SOURCES)
    (hright : right.source ∈ SELECTED_SOURCES) (hkeepsLeft : edits.Keeps left)
    (hkeepsRight : edits.Keeps right) (h : compareRules order left right ≤ 0) :
    compareRules order (edits.movedRule env left) (edits.movedRule env right) ≤ 0 := by
  by_cases hsame : sourceIndex left.source = sourceIndex right.source
  · have hfile := sourceIndex_inj hleft hright hsame
    have hstart := hkeepsLeft.startLine_eq env
    have hend := hkeepsLeft.endLine_eq env
    rw [hfile] at hstart hend
    -- in one file the edit keeps the order of the lines, so that each comparison keeps its sign
    have hstarts := FileEdits.line_le_iff hstart (hkeepsRight.startLine_eq env)
    have hstarts' := FileEdits.line_le_iff (hkeepsRight.startLine_eq env) hstart
    have hends := FileEdits.line_le_iff hend (hkeepsRight.endLine_eq env)
    have hends' := FileEdits.line_le_iff (hkeepsRight.endLine_eq env) hend
    have hids : (edits.movedRule env left).id = left.id ∧
      (edits.movedRule env right).id = right.id := ⟨rfl, rfl⟩
    have hsources : (edits.movedRule env left).source = left.source ∧
      (edits.movedRule env right).source = right.source := ⟨rfl, rfl⟩
    simp only [compareRules, hids, hsources] at h ⊢
    split_ifs at h ⊢ <;> omega
  · have hne : sourceIndex left.source - sourceIndex right.source ≠ 0 := sub_ne_zero.mpr hsame
    simp only [compareRules, if_pos hne] at h
    have hsources : (edits.movedRule env left).source = left.source ∧
      (edits.movedRule env right).source = right.source := ⟨rfl, rfl⟩
    simp only [compareRules, hsources, if_pos hne]
    exact h

theorem checkEach_of_forall {α : Type} {check : List α → α → Except String Unit} {items : List α}
    (h : ∀ before, ∀ item ∈ items, check before item = .ok ()) (before : List α) :
    checkEach check before items = .ok () := by
  induction items generalizing before with
  | nil => rfl
  | cons item items ih =>
    have hrest := ih (fun before item hitem => h before item (List.mem_cons_of_mem _ hitem))
    exact bind_eq_ok.mpr ⟨(), h before item List.mem_cons_self, hrest _⟩

/-- A check that holds one by one still holds of items that are mapped, with the mapped ones
before them. -/
theorem checkEach_map {α : Type} {check : List α → α → Except String Unit} {f : α → α}
    {items before : List α}
    (hcheck : ∀ before, ∀ item ∈ items, check before item = .ok () →
      check (before.map f) (f item) = .ok ())
    (h : checkEach check before items = .ok ()) :
    checkEach check (before.map f) (items.map f) = .ok () := by
  induction items generalizing before with
  | nil => rfl
  | cons item items ih =>
    obtain ⟨_, hitem, hitems⟩ := bind_eq_ok.mp h
    have hrest := ih (fun before item hitem => hcheck before item (List.mem_cons_of_mem _ hitem))
      hitems
    rw [List.map_append] at hrest
    exact bind_eq_ok.mpr ⟨(), hcheck before item List.mem_cons_self hitem, hrest⟩

variable (env edits manifest) in
/-- The manifest with its rules where the edits take them. -/
def movedManifest : CriticalManifest where
  schemaVersion := 1
  rules := manifest.rules.map (edits.movedRule env)

theorem movedManifest_shape (h : validateManifestShape manifest = .ok ())
    (hkeeps : ∀ rule ∈ manifest.rules, edits.Keeps rule) :
    validateManifestShape (movedManifest env edits manifest) = .ok () := by
  simp only [validateManifestShape, bind_eq_ok, failIf_eq_ok, not_not] at h ⊢
  obtain ⟨_, -, _, hnonempty, _, hrules, hsources⟩ := h
  have hids : ∀ before : List CriticalRule,
      (before.map (edits.movedRule env)).map (·.id) = before.map (·.id) := fun before =>
    List.map_map
  have hfiles : (manifest.rules.map (edits.movedRule env)).map (·.source) =
      manifest.rules.map (·.source) := List.map_map
  refine ⟨(), rfl, (), mt List.map_eq_nil_iff.mp hnonempty, (), ?_, ?_⟩
  · refine @checkEach_map _ _ _ _ [] (fun before rule hrule h => ?_) hrules
    simp only [bind_eq_ok, failIf_eq_ok, validateRuleShape_eq_ok] at h ⊢
    obtain ⟨_, hshape, hfresh⟩ := h
    refine ⟨(), moved_shaped hshape (hkeeps rule hrule), ?_⟩
    rw [hids]
    exact hfresh
  · rw [movedManifest, hfiles]
    exact hsources

theorem movedManifest_valid (h : validateCriticalManifest env manifest old = .ok ())
    (hkeeps : ∀ rule ∈ manifest.rules, edits.Keeps rule) :
    validateCriticalManifest env (movedManifest env edits manifest) new = .ok () := by
  obtain ⟨_, hshape, -⟩ := bind_eq_ok.mp h
  refine bind_eq_ok.mpr ⟨(), movedManifest_shape hshape hkeeps, checkEach_of_forall ?_ []⟩
  intro before moved hmoved
  obtain ⟨rule, hrule, rfl⟩ := List.mem_map.mp hmoved
  obtain ⟨hshaped, index, hsource⟩ := rule_of_validate h hrule
  exact moved_source hshaped (hkeeps rule hrule) hsource

theorem movedManifest_ordered (h : validateCriticalManifest env manifest old = .ok ())
    (hordered : Ordered order manifest) (hkeeps : ∀ rule ∈ manifest.rules, edits.Keeps rule) :
    Ordered order (movedManifest env edits manifest) := by
  refine List.pairwise_map.mpr (hordered.imp_of_mem fun {left right} hleft hright hle => ?_)
  exact compareRules_moved (rule_of_validate h hleft).1.selected
    (rule_of_validate h hright).1.selected (hkeeps left hleft) (hkeeps right hright) hle

/-- After edits that keep the lines of the anchors, the candidate for a manifest that was checked
is built. Each rule is taken along: it covers the lines that are left of those it covered. -/
theorem candidate_follows (edits : FileEdits old new)
    (hvalid : validateCriticalManifest env manifest old = .ok ())
    (hordered : assertManifestOrder order manifest = .ok ())
    (hkeeps : ∀ rule ∈ manifest.rules, edits.Keeps rule) :
    ∃ candidate, buildCandidate env order manifest new = .ok candidate ∧
      List.Forall₂ (fun rule moved => SameRule rule moved ∧
        ∀ line line', edits.line rule.source line = some line' →
          (rule.Covers line ↔ moved.Covers line')) manifest.rules candidate.rules := by
  rw [assertManifestOrder_eq_ok] at hordered
  have hschema : manifest.schemaVersion = 1 := by
    simp only [validateCriticalManifest, validateManifestShape, bind_eq_ok, failIf_eq_ok,
      not_not] at hvalid
    obtain ⟨_, ⟨_, hschema, -⟩, -⟩ := hvalid
    exact hschema
  have hranges : ∀ rule ∈ manifest.rules, rule.Ranged := fun rule hrule =>
    (rule_of_validate hvalid hrule).1.ranged
  have hsame : List.Forall₂ SameRule manifest.rules (movedManifest env edits manifest).rules :=
    List.forall₂_map_right_iff.mpr (List.forall₂_same.mpr fun rule _ => rfl)
  refine ⟨movedManifest env edits manifest, buildCandidate_eq_ok.mpr ⟨⟨hschema, hranges, hordered⟩,
    hsame, movedManifest_ordered hvalid hordered hkeeps, movedManifest_valid hvalid hkeeps⟩, ?_⟩
  refine List.forall₂_map_right_iff.mpr (List.forall₂_same.mpr fun rule hrule => ⟨rfl, ?_⟩)
  intro line line' hline
  exact (hkeeps rule hrule).covers_iff hline

end Moved

section Example

/-! ### An example -/

def compareCharacters (a b : String) : ℤ :=
  if a < b then -1 else if b < a then 1 else 0

theorem compareCharacters_nonpos {a b : String} : compareCharacters a b ≤ 0 ↔ a ≤ b := by
  rcases lt_trichotomy a b with h | rfl | h
  · simp [compareCharacters, h, h.le]
  · simp [compareCharacters]
  · simp [compareCharacters, h, h.not_gt, h.not_ge]

/-- Identifiers in the order of their characters. -/
def plainCollation : Collation where
  localeCompare := compareCharacters
  total a b := by
    simp only [compareCharacters_nonpos]
    exact le_total a b
  trans a b c := by
    simp only [compareCharacters_nonpos]
    exact le_trans

/-- A line is put before the call in every file. -/
def startEdits : FileEdits (fun _ => "run();") (fun _ => "start();\nrun();") where
  edit _ := [.insert "start();".toList, .keep "run();".toList]
  before_edit _ _ := by decide
  after_edit _ _ := by decide

theorem candidate_follows_start : ∃ candidate,
    buildCandidate policy plainCollation shortManifest (fun _ => "start();\nrun();") =
      .ok candidate ∧ List.Forall₂ (fun rule moved => SameRule rule moved ∧ moved.Covers 2)
        shortManifest.rules candidate.rules := by
  have hvalid : validateCriticalManifest policy shortManifest (fun _ => "run();") = .ok () := by
    rw [validateCriticalManifest, shortManifest_shape]
    decide +kernel
  have hordered : assertManifestOrder plainCollation shortManifest = .ok () := by
    rw [assertManifestOrder_eq_ok, Ordered]
    decide +kernel
  have hrules : ∀ rule ∈ shortManifest.rules, rule.startLine = 1 ∧ rule.endLine = 1 ∧
    rule.startAnchor = "run();" ∧ rule.endAnchor = "run();" := by decide
  have hkeeps : ∀ rule ∈ shortManifest.rules, startEdits.Keeps rule := by
    intro rule hrule
    obtain ⟨hstart, hend, hstartAnchor, hendAnchor⟩ := hrules rule hrule
    exact ⟨by rw [hstart]; rfl, by rw [hend]; rfl, by rw [hstartAnchor]; decide,
      by rw [hendAnchor]; decide⟩
  obtain ⟨candidate, hcandidate, hcovers⟩ := candidate_follows startEdits hvalid hordered hkeeps
  refine ⟨candidate, hcandidate, ?_⟩
  have hall := (List.forall₂_and_left _ _).mpr ⟨hrules, hcovers⟩
  refine hall.imp fun rule moved h => ⟨h.2.1, (h.2.2 1 2 rfl).mp ?_⟩
  obtain ⟨⟨hstart, hend, -⟩, -⟩ := h
  exact ⟨hstart.le, hend.ge⟩

end Example

end Quality
