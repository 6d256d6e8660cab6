import BookLibrary.Quality.MutationPolicy
import Mathlib.Tactic.Linarith

/-!
# What passes the mutation gate

Over documents that pass their checks the gate gives a verdict, and it passes a report exactly
when the score is high enough and every undetected mutant under a rule is an approved
equivalent of it. Baselines that are recorded one after the other never fall.
-/

namespace Quality

open Text

section Checks

variable {α β : Type}

@[simp]
theorem failIf_eq_ok {bad : Prop} [Decidable bad] {message : String} {u : Unit} :
    failIf bad message = .ok u ↔ ¬ bad := by
  by_cases hbad : bad
  · rw [failIf, if_pos hbad]
    exact ⟨nofun, fun h => absurd hbad h⟩
  · rw [failIf, if_neg hbad]
    exact ⟨fun _ => hbad, fun _ => rfl⟩

theorem bind_eq_ok {x : Except String α} {f : α → Except String β} {b : β} :
    (x >>= f) = .ok b ↔ ∃ a, x = .ok a ∧ f a = .ok b := by
  cases x with
  | error e => exact ⟨nofun, nofun⟩
  | ok a =>
    constructor
    · exact fun h => ⟨a, rfl, h⟩
    · rintro ⟨_, ⟨⟩, h⟩
      exact h

theorem of_checkEach {check : List α → α → Except String Unit} {before items : List α}
    (h : checkEach check before items = .ok ()) {item : α} (hitem : item ∈ items) :
    ∃ before, check before item = .ok () := by
  induction items generalizing before with
  | nil => cases hitem
  | cons first rest ih =>
    rw [checkEach, bind_eq_ok] at h
    obtain ⟨_, hfirst, hrest⟩ := h
    rcases List.mem_cons.mp hitem with rfl | hitem
    · exact ⟨before, hfirst⟩
    · exact ih hrest hitem

theorem of_forM {check : α → Except String Unit} {items : List α} (h : items.forM check = .ok ())
    {item : α} (hitem : item ∈ items) : check item = .ok () := by
  induction items with
  | nil => cases hitem
  | cons first rest ih =>
    rw [List.forM_eq_forM, List.forM_cons, bind_eq_ok] at h
    obtain ⟨_, hfirst, hrest⟩ := h
    rcases List.mem_cons.mp hitem with rfl | hitem
    · exact hfirst
    · exact ih hrest hitem

/-- What holds of every result holds along the list of the results. -/
theorem mapM_forall₂ {f : α → Except String β} {R : α → β → Prop} {items : List α}
    (h : ∀ item ∈ items, ∃ result, f item = .ok result ∧ R item result) :
    ∃ results, items.mapM f = .ok results ∧ List.Forall₂ R items results := by
  induction items with
  | nil => exact ⟨[], rfl, .nil⟩
  | cons first rest ih =>
    obtain ⟨⟨result, hresult, hR⟩, hrest⟩ := List.forall_mem_cons.mp h
    obtain ⟨results, hresults, hall⟩ := ih hrest
    refine ⟨result :: results, ?_, .cons hR hall⟩
    rw [List.mapM_cons, hresult, hresults]
    rfl

theorem forall_mem_iff {P : α → Prop} {Q : β → Prop} {items : List α} {results : List β}
    (h : List.Forall₂ (fun item result => Q result ↔ P item) items results) :
    (∀ result ∈ results, Q result) ↔ ∀ item ∈ items, P item := by
  induction h with
  | nil => exact ⟨nofun, nofun⟩
  | cons hfirst _ ih => rw [List.forall_mem_cons, List.forall_mem_cons, hfirst, ih]

/-- A location that starts at a line and a column and ends after them. -/
structure Location.Placed (location : Location) : Prop where
  startLine : 1 ≤ location.startPosition.line
  startColumn : 1 ≤ location.startPosition.column
  endLine : 1 ≤ location.endPosition.line
  endColumn : 1 ≤ location.endPosition.column
  ordered : location.startPosition.line < location.endPosition.line ∨
    (location.startPosition.line = location.endPosition.line ∧
      location.startPosition.column < location.endPosition.column)

theorem requireLocation_eq_ok {location : Location} {label : String} :
    requireLocation location label = .ok () ↔ location.Placed := by
  simp only [requireLocation, requirePosition, bind_eq_ok, failIf_eq_ok, not_not]
  constructor
  · rintro ⟨_, ⟨_, hstartLine, hstartColumn⟩, _, ⟨_, hendLine, hendColumn⟩, hordered⟩
    exact ⟨by omega, by omega, by omega, by omega, hordered⟩
  · rintro ⟨hstartLine, hstartColumn, hendLine, hendColumn, hordered⟩
    exact ⟨(), ⟨(), by omega, by omega⟩, (), ⟨(), by omega, by omega⟩, hordered⟩

theorem Location.Placed.le {location : Location} (h : location.Placed) :
    location.startPosition.line ≤ location.endPosition.line := by
  have hordered := h.ordered
  omega

end Checks

variable {env : PolicyEnvironment} {report : MutationReport} {manifest : CriticalManifest}
  {allowlist : EquivalentAllowlist} {nowIso : String}

section Documents

/-! ### What the checks promise -/

variable (env) in
/-- The entry has not expired now. -/
def EquivalentEntry.Unexpired (nowIso : String) (entry : EquivalentEntry) : Prop :=
  ∃ now expiresAt, env.dateParse nowIso = some now ∧ env.dateParse entry.expiresAt = some expiresAt ∧
    now < expiresAt

theorem mutant_of_validateReport (h : validateReport report = .ok ()) {source : String}
    (hsource : source ∈ SELECTED_SOURCES) {mutant : Mutant}
    (hmutant : mutant ∈ (report.file source).mutants) :
    mutant.location.Placed ∧ trim mutant.mutatorName.toList ≠ [] := by
  simp only [validateReport, bind_eq_ok] at h
  obtain ⟨_, _, _, _, _, _, hfiles⟩ := h
  have hfile := of_forM hfiles hsource
  simp only [validateFile, bind_eq_ok] at hfile
  obtain ⟨_, _, hmutants⟩ := hfile
  obtain ⟨before, hcheck⟩ := of_checkEach hmutants hmutant
  simp only [validateMutant, requireNonEmptyString, bind_eq_ok, failIf_eq_ok] at hcheck
  obtain ⟨_, ⟨_, _, _, hname, _, hlocation, _⟩, _⟩ := hcheck
  exact ⟨requireLocation_eq_ok.mp hlocation, hname⟩

theorem rule_of_validateCriticalManifest {sourceByPath : String → String}
    (h : validateCriticalManifest env manifest sourceByPath = .ok ()) {rule : CriticalRule}
    (hrule : rule ∈ manifest.rules) :
    rule.startLine ≤ rule.endLine ∧
      rule.sourceSha256 = sourceSha256 env (sourceByPath rule.source) := by
  simp only [validateCriticalManifest, bind_eq_ok] at h
  obtain ⟨_, hshape, hsources⟩ := h
  simp only [validateManifestShape, bind_eq_ok] at hshape
  obtain ⟨_, _, _, _, _, hrules, _⟩ := hshape
  obtain ⟨before, hcheck⟩ := of_checkEach hrules hrule
  simp only [validateRuleShape, requireSha256, bind_eq_ok, failIf_eq_ok] at hcheck
  obtain ⟨_, ⟨_, _, _, _, _, _, _, _, _, _, _, _, _, _, _, hordered, _⟩, _⟩ := hcheck
  obtain ⟨before, hcheck⟩ := of_checkEach hsources hrule
  simp only [validateRuleSource, bind_eq_ok, failIf_eq_ok, not_not] at hcheck
  obtain ⟨_, hhash, _⟩ := hcheck
  exact ⟨Nat.not_lt.mp hordered, hhash.symm⟩

theorem source_of_validateCriticalManifest {sourceByPath : String → String}
    (h : validateCriticalManifest env manifest sourceByPath = .ok ()) {source : String}
    (hsource : source ∈ SELECTED_SOURCES) : source ∈ manifest.rules.map (·.source) := by
  simp only [validateCriticalManifest, validateManifestShape, bind_eq_ok, failIf_eq_ok] at h
  obtain ⟨_, ⟨_, _, _, _, _, _, hsources⟩, _⟩ := h
  by_contra hmissing
  exact hsources (.inr ⟨source, hsource, hmissing⟩)

theorem parseIsoUtc_eq_ok {value label : String} {timestamp : ℤ}
    (h : parseIsoUtc env value label = .ok timestamp) : env.dateParse value = some timestamp := by
  rw [parseIsoUtc, bind_eq_ok] at h
  obtain ⟨_, _, h⟩ := h
  split at h
  · cases h
  · cases h
    assumption

theorem entry_of_validateEquivalentAllowlist
    (h : validateEquivalentAllowlist env allowlist manifest nowIso = .ok ())
    {entry : EquivalentEntry} (hentry : entry ∈ allowlist.entries) :
    isSha256 entry.fingerprint = true ∧ isSha256 entry.sourceSha256 = true ∧
      entry.Unexpired env nowIso := by
  simp only [validateEquivalentAllowlist, bind_eq_ok] at h
  obtain ⟨_, _, _, _, now, hnow, hentries⟩ := h
  obtain ⟨before, hcheck⟩ := of_checkEach hentries hentry
  simp only [validateEntry, requireSha256, bind_eq_ok, failIf_eq_ok, Bool.not_eq_false] at hcheck
  obtain ⟨_, _, _, hfingerprint, _, _, _, hhash, _, _, _, _, _, _, hcheck⟩ := hcheck
  split at hcheck
  · cases hcheck
  · simp only [bind_eq_ok, failIf_eq_ok] at hcheck
    obtain ⟨_, _, _, _, expiresAt, hexpires, _, _, _, hunexpired, _⟩ := hcheck
    exact ⟨hfingerprint, hhash, now, expiresAt, parseIsoUtc_eq_ok hnow, parseIsoUtc_eq_ok hexpires,
      not_le.mp hunexpired⟩

/-- Where every rule has the hash of its file, each file named by a rule has its hash. -/
theorem hashesFrom_ok (hash : String → String) {rules : List CriticalRule}
    {hashes : List (String × String)} (hrules : ∀ rule ∈ rules, rule.sourceSha256 = hash rule.source)
    (hhashes : ∀ source found, hashes.lookup source = some found → found = hash source) :
    ∃ all, hashesFrom hashes rules = .ok all ∧
      ∀ source, source ∈ rules.map (·.source) ∨ (hashes.lookup source).isSome = true →
        all.lookup source = some (hash source) := by
  induction rules generalizing hashes with
  | nil =>
    refine ⟨hashes, rfl, fun source hsource => ?_⟩
    obtain hsource | hsource := hsource
    · cases hsource
    · obtain ⟨found, hfound⟩ := Option.isSome_iff_exists.mp hsource
      rw [hfound, hhashes source found hfound]
  | cons rule rules ih =>
    obtain ⟨hrule, hrules⟩ := List.forall_mem_cons.mp hrules
    rw [hashesFrom]
    cases hlookup : hashes.lookup rule.source with
    | none =>
      have hlookups : ∀ source, (hashes ++ [(rule.source, rule.sourceSha256)]).lookup source =
          (hashes.lookup source).or (if source = rule.source then some (hash source) else none) := by
        intro source
        rw [List.lookup_append, List.lookup_cons, List.lookup_nil, hrule]
        by_cases hsource : source = rule.source
        · simp [hsource]
        · simp [hsource, beq_eq_false_iff_ne.mpr hsource]
      have hextended : ∀ source found,
          (hashes ++ [(rule.source, rule.sourceSha256)]).lookup source = some found →
            found = hash source := by
        intro source found hfound
        rw [hlookups] at hfound
        cases hold : hashes.lookup source with
        | some old =>
          rw [hold] at hfound
          cases hfound
          exact hhashes source _ hold
        | none =>
          rw [hold, Option.none_or] at hfound
          split at hfound <;> cases hfound
          rfl
      obtain ⟨all, hall, hcovers⟩ := ih hrules hextended
      refine ⟨all, hall, fun source hsource => hcovers source ?_⟩
      rw [hlookups]
      rcases hsource with hsource | hsource
      · rcases List.mem_cons.mp hsource with rfl | hsource
        · simp
        · exact .inl hsource
      · exact .inr (by simp [hsource])
    | some existing =>
      have hsame : existing = rule.sourceSha256 := (hhashes _ _ hlookup).trans hrule.symm
      obtain ⟨all, hall, hcovers⟩ := ih hrules hhashes
      refine ⟨all, ?_, fun source hsource => hcovers source ?_⟩
      · exact bind_eq_ok.mpr ⟨(), failIf_eq_ok.mpr (not_not.mpr hsame), hall⟩
      · rcases hsource with hsource | hsource
        · rcases List.mem_cons.mp hsource with rfl | hsource
          · exact .inr (by rw [hlookup]; rfl)
          · exact .inl hsource
        · exact .inr hsource

theorem manifestHashes_ok {sourceByPath : String → String}
    (h : validateCriticalManifest env manifest sourceByPath = .ok ()) :
    ∃ hashes, manifestHashes manifest = .ok hashes ∧ ∀ source ∈ SELECTED_SOURCES,
      hashes.lookup source = some (sourceSha256 env (sourceByPath source)) := by
  have hrules : ∀ rule ∈ manifest.rules,
      rule.sourceSha256 = sourceSha256 env (sourceByPath rule.source) :=
    fun rule hrule => (rule_of_validateCriticalManifest h hrule).2
  obtain ⟨hashes, hhashes, hcovers⟩ := hashesFrom_ok
    (fun source => sourceSha256 env (sourceByPath source)) hrules fun _ _ hfound => by
      rw [List.lookup_nil] at hfound
      cases hfound
  exact ⟨hashes, hhashes, fun source hsource =>
    hcovers source (.inl (source_of_validateCriticalManifest h hsource))⟩

end Documents

section Keys

/-! ### Fingerprints and keys -/

theorem length_of_isSha256 {value : String} (h : isSha256 value = true) :
    value.toList.length = 64 := by
  rw [isSha256, Bool.and_eq_true, beq_iff_eq] at h
  exact h.1

/-- A key is read from its end, where the hashes have their length. -/
theorem allowlistKey_inj {ruleId ruleId' fingerprint fingerprint' hash hash' : String}
    (hfingerprint : isSha256 fingerprint = true) (hfingerprint' : isSha256 fingerprint' = true)
    (hhash : isSha256 hash = true) (hhash' : isSha256 hash' = true)
    (h : allowlistKey ruleId fingerprint hash = allowlistKey ruleId' fingerprint' hash') :
    ruleId = ruleId' ∧ fingerprint = fingerprint' ∧ hash = hash' := by
  have hlist := congrArg String.toList h
  simp only [allowlistKey, String.toList_append] at hlist
  obtain ⟨hlist, hhashes⟩ := List.append_inj' hlist
    ((length_of_isSha256 hhash).trans (length_of_isSha256 hhash').symm)
  have hlist := List.append_cancel_right hlist
  obtain ⟨hlist, hfingerprints⟩ := List.append_inj' hlist
    ((length_of_isSha256 hfingerprint).trans (length_of_isSha256 hfingerprint').symm)
  have hlist := List.append_cancel_right hlist
  exact ⟨String.toList_inj.mp hlist, String.toList_inj.mp hfingerprints,
    String.toList_inj.mp hhashes⟩

/-- The paths of the selected files are tracked as they stand. -/
theorem selected_tracked : ∀ source ∈ SELECTED_SOURCES, trim source.toList ≠ [] ∧
    String.ofList (source.toList.map fun c => if c = '\\' then '/' else c) = source ∧
    requireTrackedPath source "mutant.source" = .ok () := by
  have htexts : ∀ source ∈ SELECTED_SOURCES, trim source.toList ≠ [] ∧
    String.ofList (source.toList.map fun c => if c = '\\' then '/' else c) = source := by decide
  intro source hsource
  obtain ⟨hnonempty, hnormalized⟩ := htexts source hsource
  refine ⟨hnonempty, hnormalized, ?_⟩
  simp only [SELECTED_SOURCES, List.mem_cons, List.not_mem_nil, or_false] at hsource
  rcases hsource with rfl | rfl | rfl | rfl | rfl <;> rfl

theorem mutantFingerprint_ok (env : PolicyEnvironment) {source hash : String} {mutant : Mutant}
    (hsource : source ∈ SELECTED_SOURCES) (hhash : isSha256 hash = true)
    (hlocation : mutant.location.Placed) (hname : trim mutant.mutatorName.toList ≠ []) :
    mutantFingerprint env mutant source hash =
      .ok (env.sha256 (String.ofList (canonicalMutant mutant source hash))) := by
  obtain ⟨hnonempty, hnormalized, htracked⟩ := selected_tracked source hsource
  simp only [mutantFingerprint, bind_eq_ok, requireSha256, requireNonEmptyString, failIf_eq_ok,
    hnormalized]
  exact ⟨(), by simp [hhash], (), hnonempty, (), htracked, (), hname, (),
    requireLocation_eq_ok.mpr hlocation, rfl⟩

end Keys

section Verdict

/-! ### The verdict -/

/-- A line of the mutant is a line of the rule. -/
def Overlaps (mutant : Mutant) (rule : CriticalRule) : Prop :=
  ∃ line, (mutant.location.startPosition.line ≤ line ∧ line ≤ mutant.location.endPosition.line) ∧
    rule.startLine ≤ line ∧ line ≤ rule.endLine

theorem overlapsRule_iff {mutant : Mutant} {rule : CriticalRule}
    (hlocation : mutant.location.startPosition.line ≤ mutant.location.endPosition.line)
    (hrule : rule.startLine ≤ rule.endLine) :
    overlapsRule mutant rule = true ↔ Overlaps mutant rule := by
  rw [overlapsRule, Bool.and_eq_true, decide_eq_true_eq, decide_eq_true_eq]
  constructor
  · rintro ⟨hstart, hend⟩
    exact ⟨max mutant.location.startPosition.line rule.startLine, by omega⟩
  · rintro ⟨line, hmutant, hline⟩
    omega

variable (env report) in
/-- The hash of a file of the report. -/
def reportHash (source : String) : String := sourceSha256 env (report.file source).source

variable (env report allowlist nowIso) in
/-- The allowlist has an entry for the mutant under the rule, and the entry has not expired. -/
def Approved (source : String) (mutant : Mutant) (rule : CriticalRule) : Prop :=
  ∃ entry ∈ allowlist.entries, entry.Unexpired env nowIso ∧ entry.ruleId = rule.id ∧
    mutantFingerprint env mutant source (reportHash env report source) = .ok entry.fingerprint ∧
    entry.sourceSha256 = reportHash env report source

variable (env report manifest allowlist nowIso) in
/-- Every undetected mutant is approved under every rule that it shares a line with. -/
def Protected : Prop :=
  ∀ source ∈ SELECTED_SOURCES, ∀ mutant ∈ (report.file source).mutants,
    mutant.status.isUndetected = true → ∀ rule ∈ manifest.rules, rule.source = source →
      Overlaps mutant rule → Approved env report allowlist nowIso source mutant rule

variable (env report) in
/-- The score over the mutants of all selected files. -/
def combinedScore : ℚ :=
  let mutants := SELECTED_SOURCES.flatMap fun source => (report.file source).mutants
  rawScore env (mutants.countP (·.status.isDetected)) (mutants.countP (·.status.isUndetected))

variable (env report manifest allowlist nowIso) in
/-- The documents pass their checks. -/
structure ValidDocuments (baseline : Option Baseline) : Prop where
  validReport : validateReport report = .ok ()
  validManifest :
    validateCriticalManifest env manifest (fun source => (report.file source).source) = .ok ()
  validAllowlist : validateEquivalentAllowlist env allowlist manifest nowIso = .ok ()
  validBaseline : ∀ b ∈ baseline, validateBaseline env b manifest = .ok ()

theorem foldl_count (mutants : List Mutant) (counts : ScoreCounts) :
    (mutants.foldl ScoreCounts.count counts).detected =
        counts.detected + mutants.countP (·.status.isDetected) ∧
      (mutants.foldl ScoreCounts.count counts).undetected =
        counts.undetected + mutants.countP (·.status.isUndetected) := by
  induction mutants generalizing counts with
  | nil => exact ⟨rfl, rfl⟩
  | cons mutant mutants ih =>
    obtain ⟨hdetected, hundetected⟩ := ih (counts.count mutant)
    rw [List.foldl_cons, hdetected, hundetected, List.countP_cons, List.countP_cons]
    cases hstatus : mutant.status <;>
      simp [ScoreCounts.count, hstatus, MutantStatus.isDetected, MutantStatus.isUndetected] <;> omega

/-- The scores of the files add up to the score of the report. -/
theorem rawScore_modules :
    rawScore env ((SELECTED_SOURCES.map (moduleScore env report)).map (·.detected)).sum
      ((SELECTED_SOURCES.map (moduleScore env report)).map (·.undetected)).sum =
        combinedScore env report := by
  have hdetected : ∀ source, (moduleScore env report source).detected =
      (report.file source).mutants.countP (·.status.isDetected) := fun source =>
    (foldl_count _ _).1.trans (Nat.zero_add _)
  have hundetected : ∀ source, (moduleScore env report source).undetected =
      (report.file source).mutants.countP (·.status.isUndetected) := fun source =>
    (foldl_count _ _).2.trans (Nat.zero_add _)
  rw [combinedScore, List.countP_flatMap, List.countP_flatMap, List.map_map, List.map_map]
  simp only [Function.comp_def, hdetected, hundetected]

theorem criticalFinding_ok {baseline : Option Baseline}
    (h : ValidDocuments env report manifest allowlist nowIso baseline) {source : String}
    (hsource : source ∈ SELECTED_SOURCES) {mutant : Mutant}
    (hmutant : mutant ∈ (report.file source).mutants) {rule : CriticalRule}
    (hrule : rule ∈ manifest.rules) (hfile : rule.source = source) :
    ∃ finding, criticalFinding env allowlist source (reportHash env report source) mutant rule =
        .ok finding ∧
      (finding.equivalent = true ↔ Approved env report allowlist nowIso source mutant rule) := by
  obtain ⟨hlocation, hname⟩ := mutant_of_validateReport h.validReport hsource hmutant
  have hrulehash : rule.sourceSha256 = reportHash env report source :=
    hfile ▸ (rule_of_validateCriticalManifest h.validManifest hrule).2
  have hhash : isSha256 (reportHash env report source) = true := env.sha256_pattern _
  have hfingerprint := mutantFingerprint_ok env hsource hhash hlocation hname
  refine ⟨_, bind_eq_ok.mpr ⟨_, hfingerprint, rfl⟩, ?_⟩
  rw [decide_eq_true_eq, List.mem_map]
  constructor
  · rintro ⟨entry, hentry, hkey⟩
    obtain ⟨hentryFingerprint, hentryHash, hunexpired⟩ :=
      entry_of_validateEquivalentAllowlist h.validAllowlist hentry
    obtain ⟨hid, hsame, hsameHash⟩ := allowlistKey_inj hentryFingerprint (env.sha256_pattern _)
      hentryHash (hrulehash ▸ hhash) hkey
    exact ⟨entry, hentry, hunexpired, hid, hsame ▸ hfingerprint, hsameHash.trans hrulehash⟩
  · rintro ⟨entry, hentry, -, hid, hsame, hsameHash⟩
    rw [hfingerprint] at hsame
    exact ⟨entry, hentry, by rw [hid, Except.ok.inj hsame, hsameHash, hrulehash]⟩

theorem mem_criticalPairs {source : String} {pair : Mutant × CriticalRule} :
    pair ∈ criticalPairs report manifest source ↔
      (pair.1 ∈ (report.file source).mutants ∧ pair.1.status.isUndetected = true) ∧
        (pair.2 ∈ manifest.rules ∧ pair.2.source = source) ∧ overlapsRule pair.1 pair.2 = true := by
  obtain ⟨mutant, rule⟩ := pair
  simp only [criticalPairs, List.mem_flatMap, List.mem_filter, List.mem_map, Prod.mk.injEq,
    decide_eq_true_eq]
  constructor
  · rintro ⟨_, hmutant, _, ⟨hrule, hoverlaps⟩, rfl, rfl⟩
    exact ⟨hmutant, hrule, hoverlaps⟩
  · rintro ⟨hmutant, hrule, hoverlaps⟩
    exact ⟨mutant, hmutant, rule, ⟨hrule, hoverlaps⟩, rfl, rfl⟩

/-- Every finding is an approved equivalent exactly when the rules are protected. -/
theorem criticalFindings_ok {baseline : Option Baseline}
    (h : ValidDocuments env report manifest allowlist nowIso baseline)
    {hashes : List (String × String)}
    (hhashes : ∀ source ∈ SELECTED_SOURCES,
      hashes.lookup source = some (reportHash env report source)) :
    ∃ findings, criticalFindings env report manifest allowlist hashes = .ok findings ∧
      ((∀ finding ∈ findings, finding.equivalent = true) ↔
        Protected env report manifest allowlist nowIso) := by
  have hfile : ∀ source ∈ SELECTED_SOURCES, ∃ findings,
      (criticalPairs report manifest source).mapM (fun pair =>
        criticalFinding env allowlist source ((hashes.lookup source).getD "") pair.1 pair.2) =
          .ok findings ∧
      ((∀ finding ∈ findings, finding.equivalent = true) ↔
        ∀ pair ∈ criticalPairs report manifest source,
          Approved env report allowlist nowIso source pair.1 pair.2) := by
    intro source hsource
    rw [hhashes source hsource]
    obtain ⟨findings, hfindings, hall⟩ := mapM_forall₂ fun pair hpair => by
      obtain ⟨⟨hmutant, -⟩, ⟨hrule, hruleFile⟩, -⟩ := mem_criticalPairs.mp hpair
      exact criticalFinding_ok h hsource hmutant hrule hruleFile
    exact ⟨findings, hfindings, forall_mem_iff hall⟩
  obtain ⟨findings, hfindings, hall⟩ := mapM_forall₂ hfile
  refine ⟨findings.flatten, bind_eq_ok.mpr ⟨_, hfindings, rfl⟩, ?_⟩
  rw [List.forall_mem_flatten, forall_mem_iff hall]
  refine forall₂_congr fun source hsource => ?_
  have hoverlaps : ∀ mutant ∈ (report.file source).mutants, ∀ rule ∈ manifest.rules,
      overlapsRule mutant rule = true ↔ Overlaps mutant rule := fun mutant hmutant rule hrule =>
    overlapsRule_iff (mutant_of_validateReport h.validReport hsource hmutant).1.le
      (rule_of_validateCriticalManifest h.validManifest hrule).1
  constructor
  · intro happroved mutant hmutant hundetected rule hrule hruleFile hlines
    exact happroved (mutant, rule) (mem_criticalPairs.mpr ⟨⟨hmutant, hundetected⟩,
      ⟨hrule, hruleFile⟩, (hoverlaps mutant hmutant rule hrule).mpr hlines⟩)
  · intro hprotected pair hpair
    obtain ⟨⟨hmutant, hundetected⟩, ⟨hrule, hruleFile⟩, hlines⟩ := mem_criticalPairs.mp hpair
    exact hprotected pair.1 hmutant hundetected pair.2 hrule hruleFile
      ((hoverlaps pair.1 hmutant pair.2 hrule).mp hlines)

/-- The score gives no violation when it is high enough. -/
theorem scoreViolations_eq_nil {profile : Profile} {baseline : Option Baseline} {score : ℚ} :
    scoreViolations env profile baseline score = [] ↔
      70 ≤ score ∧ (profile = .complete → ∀ b ∈ baseline, b.rawCombinedScore ≤ score) := by
  cases profile with
  | smoke => simp [scoreViolations]
  | complete => cases baseline <;> simp [scoreViolations]

/-- Over valid documents there is a verdict, and it is right. -/
theorem evaluateMutationReport_ok (profile : Profile) {baseline : Option Baseline}
    (h : ValidDocuments env report manifest allowlist nowIso baseline) :
    ∃ evaluation, evaluateMutationReport env profile report manifest allowlist baseline nowIso =
        .ok evaluation ∧
      evaluation.rawCombinedScore = combinedScore env report ∧
      (evaluation.passed = true ↔ 70 ≤ combinedScore env report ∧
        (profile = .complete → ∀ b ∈ baseline, b.rawCombinedScore ≤ combinedScore env report) ∧
        Protected env report manifest allowlist nowIso) := by
  obtain ⟨hashes, hhashes, hlookups⟩ := manifestHashes_ok h.validManifest
  obtain ⟨findings, hfindings, hprotected⟩ := criticalFindings_ok h hlookups
  have hbaseline : baseline.forM (fun b => validateBaseline env b manifest) = .ok () := by
    cases baseline with
    | none => rfl
    | some b => exact h.validBaseline b rfl
  have hbind : ∀ {α β : Type} (a : α) (f : α → Except String β), (Except.ok a >>= f) = f a :=
    fun _ _ => rfl
  simp only [evaluateMutationReport, h.validReport, h.validManifest, h.validAllowlist, hbaseline,
    hhashes, hfindings, hbind]
  refine ⟨_, rfl, rawScore_modules, ?_⟩
  simp only [rawScore_modules, List.isEmpty_iff, List.append_eq_nil_iff, scoreViolations_eq_nil,
    List.map_eq_nil_iff, List.filter_eq_nil_iff, Bool.not_eq_true', Bool.not_eq_false]
  rw [hprotected, and_assoc]

/-- A verdict is given over valid documents only. -/
theorem validDocuments_of_ok {profile : Profile} {baseline : Option Baseline}
    {evaluation : Evaluation} (h : evaluateMutationReport env profile report manifest allowlist
      baseline nowIso = .ok evaluation) :
    ValidDocuments env report manifest allowlist nowIso baseline := by
  simp only [evaluateMutationReport, bind_eq_ok] at h
  obtain ⟨_, hreport, _, hmanifest, _, hallowlist, _, hbaseline, _⟩ := h
  refine ⟨hreport, hmanifest, hallowlist, fun b hb => ?_⟩
  cases hb
  exact hbaseline

end Verdict

section Recording

/-! ### Recorded scores -/

/-- A recorded score is at least the score recorded before. -/
theorem recordBaseline_le {recording : Recording} {previous : Option Baseline} {baseline : Baseline}
    (h : recordBaseline env recording previous = .ok baseline) :
    ∀ b ∈ previous, b.rawCombinedScore ≤ baseline.rawCombinedScore := by
  simp only [recordBaseline, bind_eq_ok, failIf_eq_ok] at h
  obtain ⟨evaluation, hevaluation, _, hpassed, _, _, _, _, hashes, _, _, _, hreturn⟩ := h
  cases hreturn
  obtain ⟨evaluation', hevaluation', hscore, hexact⟩ :=
    evaluateMutationReport_ok .complete (validDocuments_of_ok hevaluation)
  rw [hevaluation] at hevaluation'
  cases hevaluation'
  obtain ⟨-, hbaseline, -⟩ := hexact.mp (by simpa using hpassed)
  intro b hb
  rw [hscore]
  exact hbaseline rfl b hb

theorem recordedBaselines_pairwise (recordings : List Recording) (file : Option Baseline) :
    (file.toList ++ recordedBaselines env file recordings).Pairwise fun earlier later =>
      earlier.rawCombinedScore ≤ later.rawCombinedScore := by
  induction recordings generalizing file with
  | nil => cases file <;> simp [recordedBaselines]
  | cons recording recordings ih =>
    rw [recordedBaselines]
    cases hrecord : recordBaseline env recording file with
    | error _ => exact ih file
    | ok baseline =>
      have hrest := ih (some baseline)
      cases file with
      | none => exact hrest
      | some b =>
        have hle : b.rawCombinedScore ≤ baseline.rawCombinedScore := recordBaseline_le hrecord b rfl
        refine List.pairwise_cons.mpr ⟨fun later hlater => ?_, hrest⟩
        rcases List.mem_cons.mp hlater with rfl | hlater
        · exact hle
        · exact hle.trans ((List.pairwise_cons.mp hrest).1 later hlater)

/-- The gate over valid documents: its verdict is exact, and the scores that are recorded one
after the other never fall. -/
theorem mutationGate_exact (profile : Profile) {baseline : Option Baseline}
    (h : ValidDocuments env report manifest allowlist nowIso baseline) :
    (∃ evaluation, evaluateMutationReport env profile report manifest allowlist baseline nowIso =
        .ok evaluation ∧
      (evaluation.passed = true ↔ 70 ≤ combinedScore env report ∧
        (profile = .complete → ∀ b ∈ baseline, b.rawCombinedScore ≤ combinedScore env report) ∧
        Protected env report manifest allowlist nowIso)) ∧
    ∀ (file : Option Baseline) (recordings : List Recording),
      (file.toList ++ recordedBaselines env file recordings).Pairwise fun earlier later =>
        earlier.rawCombinedScore ≤ later.rawCombinedScore := by
  obtain ⟨evaluation, hevaluation, -, hpassed⟩ := evaluateMutationReport_ok profile h
  exact ⟨⟨evaluation, hevaluation, hpassed⟩, fun file recordings =>
    recordedBaselines_pairwise recordings file⟩

/-! ### An example -/

def runHash : String := "bd438495b4c72e9d54c71195fc8ead7897e9095e6f81a6ac6231213ca3767ea4"

def survivorHash : String := "65cd784fae478b65fc722ddfcf202f19bbce9fb04fe5d8874b09dbeb3936c479"

def survivor : Mutant where
  id := "0"
  mutatorName := "BlockStatement"
  replacement := none
  status := .survived
  location := ⟨⟨1, 1⟩, ⟨1, 7⟩⟩

def killed (id : String) : Mutant := { survivor with id := id, status := .killed }

/-- The text whose hash is the fingerprint of the survivor. -/
def survivorText : String :=
  String.ofList (canonicalMutant survivor "src/auth/token-session.service.ts" runHash)

/-- The hashes and the times of the documents below. -/
def policy : PolicyEnvironment where
  sha256 text :=
    if text = "run();" then runHash
    else if text = survivorText then survivorHash
    else String.ofList (List.replicate 64 '0')
  sha256_pattern text := by
    split
    · decide
    · split <;> decide
  dateParse value :=
    if value = "2026-01-15T00:00:00.000Z" then some 1768435200000
    else if value = "2026-01-01T00:00:00Z" then some 1767225600000
    else if value = "2026-03-01T00:00:00Z" then some 1772323200000
    else none
  round := id
  toFixed score := toString score.num

theorem policy_sha256 (text : String) : policy.sha256 text =
    if text = "run();" then runHash
    else if text = survivorText then survivorHash
    else String.ofList (List.replicate 64 '0') := rfl

def shortReport : MutationReport where
  schemaVersion := "1.0"
  files := SELECTED_SOURCES.map fun source => (source, {
    language := "typescript"
    source := "run();"
    mutants := if source = "src/auth/token-session.service.ts" then
      [survivor, killed "1", killed "2", killed "3", killed "4"] else [] })

def shortManifest : CriticalManifest where
  schemaVersion := 1
  rules := SELECTED_SOURCES.map fun source => {
    id := "critical-" ++ source
    invariant := "The call is made."
    source := source
    sourceSha256 := runHash
    startLine := 1
    endLine := 1
    startAnchor := "run();"
    endAnchor := "run();" }

def shortAllowlist : EquivalentAllowlist where
  schemaVersion := 1
  entries := [{
    fingerprint := survivorHash
    ruleId := "critical-src/auth/token-session.service.ts"
    sourceSha256 := runHash
    proof := "The block has no effect."
    reviewerModel := "reviewer"
    reviewerReasoning := "Nothing reads what the call returns."
    reviewedAt := "2026-01-01T00:00:00Z"
    expiresAt := "2026-03-01T00:00:00Z" }]

def shortBaseline : Baseline where
  schemaVersion := 1
  profile := "complete"
  rawCombinedScore := 75
  generatedFromCommit := "0123456789abcdef0123456789abcdef01234567"
  generatedAt := "2026-01-01T00:00:00Z"
  selectedSources := SELECTED_SOURCES
  sourceSha256 := SELECTED_SOURCES.map fun source => (source, runHash)

theorem shortManifest_shape : validateManifestShape shortManifest = .ok () := by decide +kernel

theorem shortDocuments : ValidDocuments policy shortReport shortManifest shortAllowlist
    "2026-01-15T00:00:00.000Z" (some shortBaseline) where
  validReport := by decide +kernel
  validManifest := by
    rw [validateCriticalManifest, shortManifest_shape]
    decide +kernel
  validAllowlist := by
    rw [validateEquivalentAllowlist, shortManifest_shape]
    decide +kernel
  validBaseline b hb := by
    cases hb
    decide +kernel

theorem shortReport_score : combinedScore policy shortReport = 80 := by
  have hcounts : combinedScore policy shortReport = rawScore policy 4 1 := by rfl
  rw [hcounts]
  norm_num [rawScore, policy]

theorem survivor_fingerprint : mutantFingerprint policy survivor
    "src/auth/token-session.service.ts" runHash = .ok survivorHash := by
  have hne : survivorText ≠ "run();" := by
    intro heq
    have hlist := congrArg String.toList heq
    rw [survivorText, String.toList_ofList] at hlist
    exact absurd (List.cons.inj hlist).1 (by decide)
  have hplaced : survivor.location.Placed := ⟨le_rfl, le_rfl, le_rfl, by decide, .inr (by decide)⟩
  have hsource : "src/auth/token-session.service.ts" ∈ SELECTED_SOURCES := List.mem_cons_self
  have hhash : isSha256 runHash = true := by decide
  have hname : trim survivor.mutatorName.toList ≠ [] := by decide
  have hsurvivor : policy.sha256 survivorText = survivorHash := by
    rw [policy_sha256, if_neg hne, if_pos rfl]
  rw [← hsurvivor]
  exact mutantFingerprint_ok policy hsource hhash hplaced hname

/-- The survivor is the one undetected mutant. -/
theorem survivor_only {source : String} (hsource : source ∈ SELECTED_SOURCES) {mutant : Mutant}
    (hmutant : mutant ∈ (shortReport.file source).mutants)
    (hundetected : mutant.status.isUndetected = true) :
    source = "src/auth/token-session.service.ts" ∧ mutant = survivor := by
  have hall : ∀ source ∈ SELECTED_SOURCES, ∀ mutant ∈ (shortReport.file source).mutants,
    mutant.status.isUndetected = true →
      source = "src/auth/token-session.service.ts" ∧ mutant = survivor := by decide
  exact hall source hsource mutant hmutant hundetected

theorem mutationGate_short : ∃ evaluation, evaluateMutationReport policy .complete shortReport
    shortManifest shortAllowlist (some shortBaseline) "2026-01-15T00:00:00.000Z" = .ok evaluation ∧
      evaluation.passed = true := by
  obtain ⟨⟨evaluation, hevaluation, hpassed⟩, -⟩ := mutationGate_exact .complete shortDocuments
  refine ⟨evaluation, hevaluation, hpassed.mpr ⟨?_, fun _ b hb => ?_, ?_⟩⟩
  · rw [shortReport_score]
    norm_num
  · cases hb
    rw [shortReport_score]
    norm_num [shortBaseline]
  · intro source hsource mutant hmutant hundetected rule hrule hfile hlines
    obtain ⟨rfl, rfl⟩ := survivor_only hsource hmutant hundetected
    rw [shortManifest, List.mem_map] at hrule
    obtain ⟨source, -, rfl⟩ := hrule
    simp only at hfile
    subst hfile
    exact ⟨_, List.mem_singleton_self _, ⟨_, _, rfl, rfl, by decide⟩, rfl, survivor_fingerprint, rfl⟩

end Recording

end Quality
