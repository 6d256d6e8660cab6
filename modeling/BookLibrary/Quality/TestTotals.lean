import BookLibrary.Quality.TestRuns

/-!
# Totals of a test run

The counts of a run are those of the tests of its report, at any depth. The counts of the
projects add up to them as long as no project has the name of an inherited property.
-/

namespace Quality

open Documents

section Reports

variable {ν : Type}

/-- A test of a report: a record with the fields that are looked at. -/
inductive IsTest : PlainData ν → PlaywrightTest → Prop where
  | intro {entries : List (String × PlainData ν)} {results : List (PlainData ν)}
      {test : PlaywrightTest} (projectName : field entries "projectName" = .string test.projectName)
      (expectedStatus : field entries "expectedStatus" = .string test.expectedStatus)
      (found : field entries "results" = .array results)
      (statuses : results.mapM resultStatus = some test.results) : IsTest (.object entries) test

inductive IsSpec : PlainData ν → List PlaywrightTest → Prop where
  | intro {entries : List (String × PlainData ν)} {values : List (PlainData ν)}
      {tests : List PlaywrightTest} (found : field entries "tests" = .array values)
      (listed : List.Forall₂ IsTest values tests) : IsSpec (.object entries) tests

/-- Suites that hold the tests, in their own specs and in those of the suites within them. -/
inductive SuiteTree : List (PlainData ν) → List PlaywrightTest → Prop where
  | nil : SuiteTree [] []
  | cons {entries : List (String × PlainData ν)} {specs nested suites : List (PlainData ν)}
      {own : List (List PlaywrightTest)} {inner rest : List PlaywrightTest}
      (specsFound : field entries "specs" = .array specs) (listed : List.Forall₂ IsSpec specs own)
      (nestedFound : field entries "suites" = .array nested ∨
        field entries "suites" = .undefined ∧ nested = [])
      (within : SuiteTree nested inner) (after : SuiteTree suites rest) :
      SuiteTree (.object entries :: suites) (own.flatten ++ inner ++ rest)

/-- A report whose suites hold the tests, and whose errors have diagnostics. -/
inductive IsReport : PlainData ν → List PlaywrightTest → Prop where
  | intro {entries : List (String × PlainData ν)} {suites errors : List (PlainData ν)}
      {diagnostics : List String} {tests : List PlaywrightTest}
      (suitesFound : field entries "suites" = .array suites)
      (errorsFound : field entries "errors" = .array errors) (tree : SuiteTree suites tests)
      (diagnosed : errors.mapM globalError = .ok diagnostics) : IsReport (.object entries) tests

end Reports

section Counts

def PlaywrightTest.isCounted (key : CountKey) (test : PlaywrightTest) : Bool :=
  decide (key = .total ∨ test.classification = key)

theorem PlaywrightTest.classification_ne_total (test : PlaywrightTest) :
    test.classification ≠ .total := by
  rw [classification]
  split_ifs <;> nofun

theorem get_increment (counts : TestRunCounts) (target key : CountKey) :
    (counts.increment target).get key = counts.get key + if target = key then 1 else 0 := by
  cases target <;> cases key <;> rfl

/-- A result counts once under its key, and once in total. -/
theorem get_addResult (counts : TestRunCounts) (test : PlaywrightTest) (key : CountKey) :
    (addResult counts test.classification).get key =
      counts.get key + if test.isCounted key then 1 else 0 := by
  have hne := test.classification_ne_total
  rw [addResult, get_increment, get_increment, PlaywrightTest.isCounted]
  by_cases hkey : key = .total
  · subst hkey
    simp [hne]
  · simp [hkey, Ne.symm hkey]

end Counts

section Visits

variable {ν : Type}

/-- What the visit of a test does. -/
def PlaywrightTest.visit (test : PlaywrightTest) : Visit Unit := do
  modify fun tally => { tally with summary := addResult tally.summary test.classification }
  addToProject test.projectName test.classification

theorem visitTest_eq {value : PlainData ν} {test : PlaywrightTest} (h : IsTest value test) :
    visitTest value = test.visit := by
  obtain ⟨hname, hexpected, hfound, hstatuses⟩ := h
  simp only [visitTest, hname, classifyPlaywrightTest, checkPlaywrightTest, hexpected, hfound,
    hstatuses]
  rfl

/-- Values that are visited as the listed things are. -/
theorem forM_eq {α β : Type} {R : α → β → Prop} {f : α → Visit Unit} {g : β → Visit Unit}
    {as : List α} {bs : List β} (h : List.Forall₂ R as bs) (hfg : ∀ a b, R a b → f a = g b) :
    forM as f = forM bs g := by
  induction h with
  | nil => rfl
  | cons hab _ ih => rw [List.forM_cons, List.forM_cons, hfg _ _ hab, ih]

theorem visitSpec_eq {value : PlainData ν} {tests : List PlaywrightTest} (h : IsSpec value tests) :
    visitSpec value = forM tests PlaywrightTest.visit := by
  obtain ⟨hfound, hlisted⟩ := h
  simp only [visitSpec, hfound]
  exact forM_eq hlisted fun _ _ => visitTest_eq

theorem field_cons (key name : String) (value : PlainData ν) (entries : List (String × PlainData ν)) :
    field ((key, value) :: entries) name = if name = key then value else field entries name := by
  by_cases hkey : name = key
  · simp [field, hkey]
  · have hfalse : (name == key) = false := by simpa using hkey
    simp [field, List.lookup_cons, hfalse, hkey]

/-- The suites that are visited are those of the field. -/
theorem visitNested_eq (entries : List (String × PlainData ν)) :
    (field entries "suites" = .undefined → visitNested entries = return) ∧
      ∀ value, field entries "suites" = value → value ≠ .undefined →
        visitNested entries = visitSuites value := by
  induction entries with
  | nil => exact ⟨fun _ => rfl, fun value hvalue hne => absurd hvalue.symm hne⟩
  | cons entry entries ih =>
    obtain ⟨key, value⟩ := entry
    rw [field_cons]
    by_cases hkey : "suites" = key
    · subst hkey
      rw [if_pos rfl]
      refine ⟨?_, ?_⟩
      · rintro rfl
        exact if_pos rfl
      · rintro _ rfl hne
        cases value with
        | undefined => exact absurd rfl hne
        | _ => exact if_pos rfl
    · have hskip : visitNested ((key, value) :: entries) = visitNested entries := by
        cases value with
        | _ => exact if_neg (Ne.symm hkey)
      rw [hskip, if_neg hkey]
      exact ih

theorem forM_flatten (lists : List (List PlaywrightTest)) (f : PlaywrightTest → Visit Unit) :
    forM lists.flatten f = forM lists (forM · f) := by
  induction lists with
  | nil => rfl
  | cons list lists ih => rw [List.flatten_cons, List.forM_append, ih, List.forM_cons]

/-- A visit of the suites visits their tests one after the other. -/
theorem visitEach_eq {suites : List (PlainData ν)} {tests : List PlaywrightTest}
    (h : SuiteTree suites tests) : visitEach suites = forM tests PlaywrightTest.visit := by
  induction h with
  | nil => rfl
  | @cons entries specs nested suites own inner rest hspecs hlisted hnested _ _ ihnested ihrest =>
    have hown : forM specs visitSpec = forM own.flatten PlaywrightTest.visit := by
      rw [forM_flatten]
      exact forM_eq hlisted fun _ _ => visitSpec_eq
    have hinner : visitNested entries = forM inner PlaywrightTest.visit := by
      rw [← ihnested]
      rcases hnested with hnested | ⟨hnested, rfl⟩
      · exact (visitNested_eq entries).2 _ hnested nofun
      · exact (visitNested_eq entries).1 hnested
    have hsuite : visitSuite (.object entries) = (do
        forM own.flatten PlaywrightTest.visit
        forM inner PlaywrightTest.visit) := by
      rw [← hown, ← hinner]
      rcases hnested with hnested | ⟨hnested, -⟩
      · simp only [visitSuite, hspecs, hnested]
      · simp only [visitSuite, hspecs, hnested]
    rw [visitEach, hsuite, ihrest, List.forM_append, List.forM_append]

end Visits

/-- One action after the other; an error ends them, and what it leaves stays. -/
theorem run_bind {σ α β : Type} (x : ExceptT Failure (StateM σ) α)
    (f : α → ExceptT Failure (StateM σ) β) (s : σ) :
    (x >>= f).run s = match x.run s with
      | (.ok a, s') => (f a).run s'
      | (.error e, s') => (.error e, s') := by
  have hrun : (x >>= f).run s =
      (fun p : Except Failure α × σ => ExceptT.bindCont f p.1 p.2) (x.run s) := rfl
  rw [hrun]
  rcases x.run s with ⟨e | a, s'⟩
  · rfl
  · rfl

section Runs

variable {prototype : List String} {seen : List PlaywrightTest} {tally tally' : Tally}
  {test : PlaywrightTest}

/-- The name of a property that objects inherit, or of a number on their prototype. -/
def Inherited (prototype : List String) (name : String) : Prop :=
  name ∈ inheritedNames ∨ name ∈ prototype

instance (prototype : List String) (name : String) : Decidable (Inherited prototype name) :=
  inferInstanceAs (Decidable (_ ∨ _))

/-- The test is one of those that no project gets. -/
def PlaywrightTest.isStray (test : PlaywrightTest) : Bool :=
  decide (test.projectName ∈ inheritedNames)

/-- What a visit of the tests leaves, whose projects had names that are on the prototype. -/
structure Tally.Follows (prototype : List String) (seen : List PlaywrightTest) (tally : Tally) :
    Prop where
  once : ∀ key, tally.summary.get key = seen.countP (·.isCounted key)
  split : ∀ key, (tally.projects.map fun project => project.2.get key).sum +
    seen.countP (fun test => test.isStray && test.isCounted key) = tally.summary.get key
  named : ∀ test ∈ seen, test.projectName ∈ inheritedNames ∨ test.projectName ∉ prototype
  keys : ∀ name ∈ tally.projects.map (·.1), ¬ Inherited prototype name
  numbers : prototype ⊆ tally.prototype
  clean : (∀ test ∈ seen, test.isStray = false) → tally.prototype = prototype

theorem Tally.follows_start (prototype : List String) :
    Tally.Follows prototype [] ⟨.none, [], prototype⟩ where
  once key := by cases key <;> rfl
  split key := by cases key <;> rfl
  named := nofun
  keys := nofun
  numbers := List.Subset.refl _
  clean _ := rfl

/-- What `addToProject` does with the tally that it has read. -/
def addToEntry (projectName : String) (classification : CountKey) (tally : Tally) : Visit Unit :=
  match getEntry projectName tally.projects with
  | some project =>
    set { tally with
      projects := setEntry projectName (addResult project classification) tally.projects }
  | none =>
    if projectName ∈ inheritedNames then
      if projectName = "__proto__" then
        set { tally with prototype := tally.prototype ++ [classification.text, "total"] }
      else return
    else if projectName ∈ tally.prototype then throw .typeError
    else
      set { tally with
        projects := setEntry projectName (addResult .none classification) tally.projects }

/-- An entry of the project is made or replaced, or the name is inherited: the result goes to
an inherited object, or there is only a number to write it to. -/
theorem addToProject_cases (projectName : String) (classification : CountKey) (tally : Tally) :
    ((projectName ∈ tally.projects.map (·.1) ∨ ¬ Inherited tally.prototype projectName) ∧
      (addToProject projectName classification).run tally = (.ok (), { tally with
        projects := setEntry projectName
          (addResult ((getEntry projectName tally.projects).getD .none) classification)
          tally.projects })) ∨
    (projectName ∈ inheritedNames ∧ ∃ numbers,
      (addToProject projectName classification).run tally =
        (.ok (), { tally with prototype := tally.prototype ++ numbers })) ∨
    (projectName ∈ tally.prototype ∧
      (addToProject projectName classification).run tally = (.error .typeError, tally)) := by
  have hrun : (addToProject projectName classification).run tally =
      (addToEntry projectName classification tally).run tally := rfl
  rw [hrun, addToEntry]
  cases hentry : getEntry projectName tally.projects with
  | some project => exact .inl ⟨.inl (mem_keys_iff.mpr ⟨project, hentry⟩), rfl⟩
  | none =>
    dsimp only
    split_ifs with hinherited hproto hnumber
    · exact .inr (.inl ⟨hinherited, _, rfl⟩)
    · exact .inr (.inl ⟨hinherited, [], by rw [List.append_nil]; rfl⟩)
    · exact .inr (.inr ⟨hnumber, rfl⟩)
    · exact .inl ⟨.inr (not_or.mpr ⟨hinherited, hnumber⟩), rfl⟩

/-- A visit of one test counts it, or throws where a project has an inherited name. -/
theorem visit_follows (test : PlaywrightTest) (h : tally.Follows prototype seen) :
    (∃ tally', test.visit.run tally = (.ok (), tally') ∧ tally'.Follows prototype (seen ++ [test])) ∨
      ∃ e tally', test.visit.run tally = (.error e, tally') ∧
        ∃ test' ∈ seen ++ [test], Inherited prototype test'.projectName := by
  have honce : ∀ key, (addResult tally.summary test.classification).get key =
      (seen ++ [test]).countP (·.isCounted key) := by
    intro key
    rw [get_addResult, h.once, List.countP_append, List.countP_singleton]
  have hvisit : test.visit.run tally = (addToProject test.projectName test.classification).run
    { tally with summary := addResult tally.summary test.classification } := rfl
  rw [hvisit]
  rcases addToProject_cases test.projectName test.classification
    { tally with summary := addResult tally.summary test.classification } with
    ⟨hname, hrun⟩ | ⟨hname, numbers, hrun⟩ | ⟨hname, hrun⟩
  · -- the project has an entry of its own
    have hfree : ¬ Inherited prototype test.projectName := by
      rcases hname with hkey | hfree
      · exact h.keys _ hkey
      · exact fun hin => hfree (hin.imp_right fun hmem => h.numbers hmem)
    have hstray : test.isStray = false := decide_eq_false fun hin => hfree (.inl hin)
    refine .inl ⟨_, hrun, honce, fun key => ?_, ?_, ?_, h.numbers, fun hclean => ?_⟩
    · have hsum := @sum_setEntry String TestRunCounts _ tally.projects test.projectName
        (addResult ((getEntry test.projectName tally.projects).getD .none) test.classification)
        fun counts => counts.get key
      have hold : ((getEntry test.projectName tally.projects).map fun counts => counts.get key).getD 0 =
          ((getEntry test.projectName tally.projects).getD .none).get key := by
        cases getEntry test.projectName tally.projects with
        | some counts => rfl
        | none => cases key <;> rfl
      have hsplit := h.split key
      rw [get_addResult, hold] at hsum
      rw [get_addResult, List.countP_append, List.countP_singleton, hstray]
      simp only [Bool.false_and, Bool.false_eq_true, if_false]
      omega
    · intro test' htest'
      rcases List.mem_append.mp htest' with hmem | hmem
      · exact h.named test' hmem
      · rw [List.mem_singleton.mp hmem]
        exact .inr fun hin => hfree (.inr hin)
    · intro name hmem
      rcases mem_keys_setEntry.mp hmem with rfl | hmem
      · exact hfree
      · exact h.keys name hmem
    · exact h.clean fun test' hmem => hclean test' (List.mem_append_left _ hmem)
  · -- the result is lost to the project
    have hstray : test.isStray = true := decide_eq_true hname
    refine .inl ⟨_, hrun, honce, fun key => ?_, ?_, h.keys,
      fun _ hmem => List.mem_append_left _ (h.numbers hmem), fun hclean => ?_⟩
    · have hsplit := h.split key
      rw [get_addResult, List.countP_append, List.countP_singleton, hstray, Bool.true_and]
      dsimp only
      omega
    · intro test' htest'
      rcases List.mem_append.mp htest' with hmem | hmem
      · exact h.named test' hmem
      · rw [List.mem_singleton.mp hmem]
        exact .inl hname
    · have hfalse := hclean test (List.mem_append_right _ List.mem_cons_self)
      rw [hstray] at hfalse
      cases hfalse
  · refine .inr ⟨_, _, hrun, ?_⟩
    by_cases hclean : ∀ test' ∈ seen, test'.isStray = false
    · refine ⟨test, List.mem_append_right _ List.mem_cons_self, .inr ?_⟩
      rw [← h.clean hclean]
      exact hname
    · simp only [not_forall, Bool.not_eq_false] at hclean
      obtain ⟨test', hmem, hstray⟩ := hclean
      exact ⟨test', List.mem_append_left _ hmem, .inl (of_decide_eq_true hstray)⟩

/-- So does a visit of all tests. -/
theorem visits_follow (tests : List PlaywrightTest) (h : tally.Follows prototype seen) :
    (∃ tally', (forM tests PlaywrightTest.visit : Visit Unit).run tally = (.ok (), tally') ∧
        tally'.Follows prototype (seen ++ tests)) ∨
      ∃ e tally', (forM tests PlaywrightTest.visit : Visit Unit).run tally = (.error e, tally') ∧
        ∃ test ∈ seen ++ tests, Inherited prototype test.projectName := by
  induction tests generalizing seen tally with
  | nil =>
    rw [List.append_nil]
    exact .inl ⟨tally, rfl, h⟩
  | cons test tests ih =>
    rw [List.forM_cons, run_bind, ← List.singleton_append, ← List.append_assoc]
    rcases visit_follows test h with ⟨tally', hrun, h'⟩ | ⟨e, tally', hrun, test', hmem, hin⟩
    · rw [hrun]
      exact ih h'
    · rw [hrun]
      exact .inr ⟨e, tally', rfl, test', List.mem_append_left _ hmem, hin⟩

end Runs

section Summaries

variable {ν : Type} {round : ℚ → ℚ} {raw : PlainData ν} {tests : List PlaywrightTest}
  {prototype : List String}

/-- The counts of a summary are those of the tests, and the sums of those of the projects. -/
structure Tallies (tests : List PlaywrightTest) (summary : PlaywrightRunSummary) : Prop where
  balanced : summary.total = summary.passed + summary.failed + summary.skipped + summary.flaky
  once : ∀ key, summary.get key = tests.countP (·.isCounted key)
  split : ∀ key, summary.get key = (summary.projects.map fun project => project.2.get key).sum

/-- Every test has one result. -/
theorem isCounted_total (test : PlaywrightTest) :
    (if test.isCounted .total then 1 else 0) =
      (if test.isCounted .passed then 1 else 0) + (if test.isCounted .failed then 1 else 0) +
        (if test.isCounted .skipped then 1 else 0) + if test.isCounted .flaky then 1 else 0 := by
  cases hresult : test.classification with
  | total => exact absurd hresult test.classification_ne_total
  | _ => simp [PlaywrightTest.isCounted, hresult]

theorem countP_total (tests : List PlaywrightTest) :
    tests.countP (·.isCounted .total) =
      tests.countP (·.isCounted .passed) + tests.countP (·.isCounted .failed) +
        tests.countP (·.isCounted .skipped) + tests.countP (·.isCounted .flaky) := by
  induction tests with
  | nil => rfl
  | cons test tests ih =>
    have htest := isCounted_total test
    simp only [List.countP_cons]
    omega

theorem countSuites_run (suites : PlainData ν) (prototype : List String) :
    (countSuites suites).run prototype =
      match (visitSuites suites).run ⟨.none, [], prototype⟩ with
      | (.ok _, tally) => (.ok tally, tally.prototype)
      | (.error e, tally) => (.error e, tally.prototype) := by
  have hrun : (countSuites suites).run prototype =
      (fun p : Except Failure Unit × Tally => (p.1.map fun _ => p.2, p.2.prototype))
        ((visitSuites suites).run ⟨.none, [], prototype⟩) := rfl
  rw [hrun]
  rcases (visitSuites suites).run ⟨.none, [], prototype⟩ with ⟨e | _, tally⟩
  · rfl
  · rfl

/-- The summary of a report is that of what its tests leave. -/
theorem parsePlaywrightResults_run (h : IsReport raw tests) (round : ℚ → ℚ)
    (prototype : List String) : ∃ diagnostics,
      (parsePlaywrightResults round raw).run prototype =
        match (forM tests PlaywrightTest.visit : Visit Unit).run ⟨.none, [], prototype⟩ with
        | (.ok _, tally) => (.ok { createSummary round tally.summary with
            globalErrors := diagnostics
            projects := tally.projects.map fun (name, counts) => (name, createSummary round counts) },
            tally.prototype)
        | (.error e, tally) => (.error e, tally.prototype) := by
  obtain @⟨entries, suites, errors, diagnostics, _, hsuites, herrors, htree, hdiagnosed⟩ := h
  refine ⟨diagnostics, ?_⟩
  have hlift : liftExcept (m := Reporting) (Except.ok (ε := Failure) diagnostics) = pure diagnostics := rfl
  have hvisit : visitSuites (.array suites) = forM tests PlaywrightTest.visit := visitEach_eq htree
  simp only [parsePlaywrightResults, hsuites, herrors, hdiagnosed]
  rw [hlift, pure_bind, run_bind, countSuites_run, hvisit]
  rcases (forM tests PlaywrightTest.visit : Visit Unit).run ⟨.none, [], prototype⟩ with ⟨e | _, tally⟩
  · rfl
  · rfl

/-- The counts of a run are those of its tests, each test once, and they are the sums of those
of the projects exactly where no project has an inherited name. -/
theorem parsePlaywrightResults_tallies_iff (h : IsReport raw tests) (round : ℚ → ℚ)
    (prototype : List String) :
    (∃ summary prototype', (parsePlaywrightResults round raw).run prototype =
        (.ok summary, prototype') ∧ Tallies tests summary) ↔
      ∀ test ∈ tests, ¬ Inherited prototype test.projectName := by
  obtain ⟨diagnostics, hrun⟩ := parsePlaywrightResults_run h round prototype
  rw [hrun]
  rcases visits_follow tests (Tally.follows_start prototype) with
    ⟨tally, hvisits, hfollows⟩ | ⟨e, tally, hvisits, test, htest, hin⟩
  · rw [List.nil_append] at hfollows
    have hsum : ∀ key, ((tally.projects.map fun (name, counts) =>
        (name, createSummary round counts)).map fun project => project.2.get key).sum +
          tests.countP (fun test => test.isStray && test.isCounted key) = tally.summary.get key := by
      intro key
      rw [List.map_map]
      exact hfollows.split key
    rw [hvisits]
    constructor
    · rintro ⟨_, _, heq, htallies⟩ test htest hin
      cases heq
      have hstrays : tests.countP (fun test => test.isStray && test.isCounted .total) = 0 := by
        have htotal := htallies.split .total
        exact Nat.add_eq_left.mp ((hsum .total).trans htotal)
      have hnot := List.countP_eq_zero.mp hstrays test htest
      have hstray : test.projectName ∉ inheritedNames := by
        intro hname
        exact hnot (by rw [PlaywrightTest.isStray, decide_eq_true hname]; rfl)
      rcases hin with hname | hname
      · exact hstray hname
      · exact (hfollows.named test htest).elim hstray fun hfree => hfree hname
    · intro hfree
      refine ⟨_, _, rfl, ?_, hfollows.once, fun key => ?_⟩
      · have hcounts := countP_total tests
        rw [← hfollows.once, ← hfollows.once, ← hfollows.once, ← hfollows.once, ← hfollows.once]
          at hcounts
        exact hcounts
      · have hstrays : tests.countP (fun test => test.isStray && test.isCounted key) = 0 := by
          refine List.countP_eq_zero.mpr fun test htest hcounted => hfree test htest (.inl ?_)
          exact of_decide_eq_true (Bool.and_eq_true_iff.mp hcounted).1
        have hkey := hsum key
        rw [hstrays] at hkey
        exact hkey.symm
  · rw [hvisits]
    rw [List.nil_append] at htest
    exact ⟨nofun, fun hfree => absurd hin (hfree test htest)⟩

section Values

def testValue (test : PlaywrightTest) : PlainData ν :=
  .object [("projectName", .string test.projectName), ("expectedStatus", .string test.expectedStatus),
    ("results", .array (test.results.map fun status => .object [("status", .string status)]))]

/-- A suite with the tests in one spec. -/
def suiteValue (tests : List PlaywrightTest) (nested : List (PlainData ν)) : PlainData ν :=
  .object [("suites", .array nested),
    ("specs", .array [.object [("tests", .array (tests.map testValue))]])]

def reportValue (suites : List (PlainData ν)) : PlainData ν :=
  .object [("suites", .array suites), ("errors", .array [])]

theorem isTest_testValue (test : PlaywrightTest) : IsTest (testValue test : PlainData ν) test := by
  have hstatuses : ∀ statuses : List String,
      (statuses.map fun status => (.object [("status", .string status)] : PlainData ν)).mapM
        resultStatus = some statuses := by
    intro statuses
    induction statuses with
    | nil => rfl
    | cons status statuses ih =>
      rw [List.map_cons, List.mapM_cons, ih]
      rfl
  exact .intro rfl rfl rfl (hstatuses _)

theorem SuiteTree.suiteValue {nested suites : List (PlainData ν)} {inner rest : List PlaywrightTest}
    (own : List PlaywrightTest) (within : SuiteTree nested inner) (after : SuiteTree suites rest) :
    SuiteTree (suiteValue own nested :: suites) (own ++ inner ++ rest) := by
  have hlisted : List.Forall₂ IsTest (own.map (testValue (ν := ν))) own :=
    List.forall₂_map_left_iff.mpr (List.forall₂_same.mpr fun test _ => isTest_testValue test)
  have htree : SuiteTree (Quality.suiteValue own nested :: suites) ([own].flatten ++ inner ++ rest) :=
    .cons rfl (.cons (.intro rfl hlisted) .nil) (.inl rfl) within after
  rw [List.flatten_singleton] at htree
  exact htree

theorem SuiteTree.reportValue {suites : List (PlainData ν)} (h : SuiteTree suites tests) :
    IsReport (reportValue suites) tests := .intro rfl rfl h rfl

end Values

/-- Suites in suites, a retry, and a skipped test. -/
def nestedSuites : List (PlainData ℕ) :=
  [suiteValue [⟨"desktop", "passed", ["passed"]⟩]
    [suiteValue [⟨"mobile", "passed", ["failed", "passed"]⟩, ⟨"desktop", "skipped", []⟩] []]]

theorem parsePlaywrightResults_tallies_nested :
    ∃ summary prototype', (parsePlaywrightResults id (reportValue nestedSuites)).run [] =
        (.ok summary, prototype') ∧
      Tallies [⟨"desktop", "passed", ["passed"]⟩, ⟨"mobile", "passed", ["failed", "passed"]⟩,
        ⟨"desktop", "skipped", []⟩] summary :=
  (parsePlaywrightResults_tallies_iff (SuiteTree.reportValue
    (.suiteValue [_] (.suiteValue [_, _] .nil .nil) .nil)) id []).mpr (by decide)

/-- A project with the name of a property that objects inherit gets no summary. -/
theorem parsePlaywrightResults_constructor :
    IsReport (reportValue [suiteValue [⟨"constructor", "passed", ["passed"]⟩] ([] : List (PlainData ℕ))])
      [⟨"constructor", "passed", ["passed"]⟩] ∧
    ¬ ∃ summary prototype', (parsePlaywrightResults id (reportValue [suiteValue
        [⟨"constructor", "passed", ["passed"]⟩] ([] : List (PlainData ℕ))])).run [] =
          (.ok summary, prototype') ∧
      Tallies [⟨"constructor", "passed", ["passed"]⟩] summary := by
  refine ⟨SuiteTree.reportValue (.suiteValue [_] .nil .nil), ?_⟩
  rintro ⟨summary, prototype', hrun, htallies⟩
  have hcounts : ((parsePlaywrightResults id (reportValue [suiteValue
      [⟨"constructor", "passed", ["passed"]⟩] ([] : List (PlainData ℕ))])).run []).1.toOption.map
        (fun summary => (summary.total, (summary.projects.map fun project => project.2.total).sum)) =
      some (1, 0) := by rfl
  rw [hrun] at hcounts
  have htotal := htallies.split .total
  obtain ⟨hone, hzero⟩ := Prod.mk.inj (Option.some.inj hcounts)
  exact absurd (hone.symm.trans (htotal.trans hzero)) (by decide)

end Summaries

section Acceptance

variable {ν : Type}

theorem run_bind_ok {σ α β : Type} {x : ExceptT Failure (StateM σ) α}
    {f : α → ExceptT Failure (StateM σ) β} {s s' : σ} {b : β}
    (h : (x >>= f).run s = (.ok b, s')) :
    ∃ a s₁, x.run s = (.ok a, s₁) ∧ (f a).run s₁ = (.ok b, s') := by
  rw [run_bind] at h
  rcases hx : x.run s with ⟨e | a, s₁⟩
  · rw [hx] at h
    cases h
  · rw [hx] at h
    exact ⟨a, s₁, rfl, h⟩

theorem forM_ok {α β : Type} {R : α → β → Prop} {f : α → Visit Unit} {as : List α}
    {tally tally' : Tally} (h : (forM as f).run tally = (.ok (), tally'))
    (hf : ∀ a ∈ as, ∀ tally tally', (f a).run tally = (.ok (), tally') → ∃ b, R a b) :
    ∃ bs, List.Forall₂ R as bs := by
  induction as generalizing tally with
  | nil => exact ⟨[], .nil⟩
  | cons a as ih =>
    rw [List.forM_cons] at h
    obtain ⟨_, tally₁, ha, has⟩ := run_bind_ok h
    obtain ⟨b, hb⟩ := hf a List.mem_cons_self _ _ ha
    obtain ⟨bs, hbs⟩ := ih has fun a' ha' => hf a' (List.mem_cons_of_mem _ ha')
    exact ⟨b :: bs, .cons hb hbs⟩

/-- A test that passes the checks has the fields that they read. -/
theorem isTest_of_checked {entries : List (String × PlainData ν)} {test : PlaywrightTest}
    (h : checkPlaywrightTest entries = .ok test) : IsTest (.object entries) test := by
  rw [checkPlaywrightTest] at h
  split at h
  · next projectName expectedStatus results hname hexpected hresults =>
    split at h
    · next statuses hstatuses =>
      cases h
      exact .intro hname hexpected hresults hstatuses
    · cases h
  · cases h

theorem isTest_of_accepted {value : PlainData ν} {tally tally' : Tally}
    (h : (visitTest value).run tally = (.ok (), tally')) : ∃ test, IsTest value test := by
  cases value with
  | object entries =>
    rw [visitTest] at h
    split at h
    · obtain ⟨classification, _, hclassified, -⟩ := run_bind_ok h
      cases hcheck : checkPlaywrightTest entries with
      | ok test => exact ⟨test, isTest_of_checked hcheck⟩
      | error e =>
        rw [classifyPlaywrightTest, hcheck] at hclassified
        cases hclassified
    · cases h
  | _ => cases h

theorem isSpec_of_accepted {value : PlainData ν} {tally tally' : Tally}
    (h : (visitSpec value).run tally = (.ok (), tally')) : ∃ tests, IsSpec value tests := by
  cases value with
  | object entries =>
    rw [visitSpec] at h
    split at h
    · next values hfound =>
      obtain ⟨tests, htests⟩ := forM_ok h fun _ _ _ _ => isTest_of_accepted
      exact ⟨tests, .intro hfound htests⟩
    · cases h
  | _ => cases h

theorem SuiteTree.append {suites suites' : List (PlainData ν)} {tests tests' : List PlaywrightTest}
    (h : SuiteTree suites tests) (h' : SuiteTree suites' tests') :
    SuiteTree (suites ++ suites') (tests ++ tests') := by
  induction h with
  | nil => exact h'
  | cons hspecs hlisted hnested hwithin _ _ ih =>
    rw [List.append_assoc]
    exact .cons hspecs hlisted hnested hwithin ih

theorem suiteTree_of_each {suites : List (PlainData ν)} {tally tally' : Tally}
    (h : (visitEach suites).run tally = (.ok (), tally'))
    (hsuite : ∀ suite ∈ suites, ∀ tally tally', (visitSuite suite).run tally = (.ok (), tally') →
      ∃ tests, SuiteTree [suite] tests) : ∃ tests, SuiteTree suites tests := by
  induction suites generalizing tally with
  | nil => exact ⟨[], .nil⟩
  | cons suite suites ih =>
    rw [visitEach] at h
    obtain ⟨_, tally₁, hfirst, hrest⟩ := run_bind_ok h
    obtain ⟨tests, htests⟩ := hsuite suite List.mem_cons_self _ _ hfirst
    obtain ⟨tests', htests'⟩ := ih hrest fun s hs => hsuite s (List.mem_cons_of_mem _ hs)
    exact ⟨_, htests.append htests'⟩

theorem mem_of_field {entries : List (String × PlainData ν)} {name : String} {value : PlainData ν}
    (h : field entries name = value) (hne : value ≠ .undefined) : (name, value) ∈ entries := by
  rw [field] at h
  cases hlookup : entries.lookup name with
  | none =>
    rw [hlookup] at h
    exact absurd h.symm hne
  | some found =>
    rw [hlookup] at h
    obtain rfl : found = value := h
    obtain ⟨before, after, rfl, -⟩ := List.lookup_eq_some_iff.mp hlookup
    exact List.mem_append_right _ List.mem_cons_self

/-- A visit that does not throw has seen well-formed suites, at every depth. -/
theorem suiteTree_of_accepted (value : PlainData ν) :
    (∀ tally tally', (visitSuites value).run tally = (.ok (), tally') →
      ∃ suites tests, value = .array suites ∧ SuiteTree suites tests) ∧
    ∀ tally tally', (visitSuite value).run tally = (.ok (), tally') →
      ∃ tests, SuiteTree [value] tests := by
  induction value with
  | undefined | null | bool | number | string => exact ⟨nofun, nofun⟩
  | array items ih =>
    refine ⟨fun tally tally' h => ?_, nofun⟩
    obtain ⟨tests, htests⟩ := suiteTree_of_each h fun item hitem => (ih item hitem).2
    exact ⟨items, tests, rfl, htests⟩
  | object entries ih =>
    refine ⟨nofun, fun tally tally' h => ?_⟩
    rw [visitSuite] at h
    split at h
    · next specs nested hspecs hnested =>
      obtain ⟨_, tally₁, hown, hwithin⟩ := run_bind_ok h
      obtain ⟨own, hlisted⟩ := forM_ok hown fun _ _ _ _ => isSpec_of_accepted
      rw [(visitNested_eq entries).2 _ hnested nofun] at hwithin
      obtain ⟨_, inner, heq, htree⟩ := (ih _ (mem_of_field hnested nofun)).1 _ _ hwithin
      cases heq
      exact ⟨_, .cons hspecs hlisted (.inl hnested) htree .nil⟩
    · next specs hspecs hnested =>
      obtain ⟨_, tally₁, hown, -⟩ := run_bind_ok h
      obtain ⟨own, hlisted⟩ := forM_ok hown fun _ _ _ _ => isSpec_of_accepted
      exact ⟨_, .cons hspecs hlisted (.inr ⟨hnested, rfl⟩) .nil .nil⟩
    · cases h

/-- What is accepted is a report. -/
theorem isReport_of_accepted {round : ℚ → ℚ} {raw : PlainData ν} {prototype prototype' : List String}
    {summary : PlaywrightRunSummary}
    (h : (parsePlaywrightResults round raw).run prototype = (.ok summary, prototype')) :
    ∃ tests, IsReport raw tests := by
  cases raw with
  | object entries =>
    rw [parsePlaywrightResults] at h
    split at h
    · next suites errors hsuites herrors =>
      obtain ⟨diagnostics, numbers, hdiagnosed, hrest⟩ := run_bind_ok h
      obtain ⟨tally, numbers', hcounted, -⟩ := run_bind_ok hrest
      obtain ⟨diagnostics, herror⟩ : ∃ diagnostics, errors.mapM globalError = .ok diagnostics := by
        cases herror : errors.mapM globalError with
        | ok diagnostics => exact ⟨diagnostics, rfl⟩
        | error e =>
          rw [herror] at hdiagnosed
          cases hdiagnosed
      rcases hvisit : (visitSuites (.array suites)).run ⟨.none, [], numbers⟩ with ⟨e | _, tally'⟩
      · rw [countSuites_run, hvisit] at hcounted
        cases hcounted
      · obtain ⟨_, tests, heq, htree⟩ := (suiteTree_of_accepted _).1 _ _ hvisit
        cases heq
        exact ⟨tests, .intro hsuites herrors htree herror⟩
    · cases h
  | _ => cases h

end Acceptance

end Quality
