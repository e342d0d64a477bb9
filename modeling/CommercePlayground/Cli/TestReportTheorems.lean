/-
CommercePlayground.Cli.TestReportTheorems — what the converter makes of a report.

`absorb` is what one diagnostic element does to the case that is being read, and a test
case is a fold of it (`run_test`). Going through the elements of a test case from the last
one, `finishCase_iff` says when the cases that come out are those of the report.
-/
import CommercePlayground.Cli.TestReport

namespace CommercePlayground.Cli.TestReport

open Lib

variable {secondsToMs : Option Text → Option Nat}

/-! ## One element -/

/-- No diagnostic is being read. -/
structure ActiveCase.Resting (active : ActiveCase) : Prop where
  diagnostic : active.readingDiagnostic = false
  flaky : active.readingFlaky = false

/-- A diagnostic element that has been read, with what text there was before it. -/
def failed (active : ActiveCase) (d : DiagnosticElement) : ActiveCase :=
  let stack := active.diagnosticStack ++ d.text
  let message := (attributeValue d.attributes "message").getD []
  { active with
    case := { active.case with outcome := d.outcome }
    diagnosticKind := some (diagnosticKind d.tag d.attributes)
    diagnosticMessage := if message.isEmpty && d.body.isSome then stack else message
    diagnosticStack := stack }

/-- What an element does to the case. -/
def absorb (active : ActiveCase) (d : DiagnosticElement) : ActiveCase :=
  if d.isFlaky then finishFlakyAttempt (failed active d) else failed active d

theorem absorb_resting {active : ActiveCase} (h : active.Resting) (d : DiagnosticElement) :
    (absorb active d).Resting := by
  unfold absorb
  split
  · exact ⟨h.diagnostic, rfl⟩
  · exact ⟨h.diagnostic, h.flaky⟩

/-- All text of a body is read. -/
theorem run_body (body : List Other) (suites : List Text) (cases : List Case)
    {active : ActiveCase} (h : active.readingDiagnostic = true) :
    (body.map Other.event).foldl (step secondsToMs) ⟨suites, some active, cases⟩ =
      ⟨suites, some { active with
        diagnosticStack := active.diagnosticStack ++ body.flatMap Other.content }, cases⟩ := by
  induction body generalizing active with
  | nil => simp
  | cons e body ih =>
    rw [List.map_cons, List.foldl_cons, List.flatMap_cons]
    cases e with
    | text content =>
      have hread : step secondsToMs ⟨suites, some active, cases⟩ (Other.text content).event =
          ⟨suites, some { active with
            diagnosticStack := active.diagnosticStack ++ content }, cases⟩ := by
        show State.updateActive _ (readText content) = _
        unfold State.updateActive readText
        simp only [Option.map_some, h, if_true]
      have hnext : ({ active with
          diagnosticStack := active.diagnosticStack ++ content } : ActiveCase).readingDiagnostic
            = true := h
      rw [hread, ih hnext, List.append_assoc]
      rfl
    | start name attributes => exact ih h
    | empty name attributes => exact ih h
    | close name => exact ih h

theorem run_diagnostic (d : DiagnosticElement) (suites : List Text) (cases : List Case)
    {active : ActiveCase} (h : active.Resting) :
    d.events.foldl (step secondsToMs) ⟨suites, some active, cases⟩ =
      ⟨suites, some (absorb active d), cases⟩ := by
  obtain ⟨tag, attributes, body⟩ := d
  cases body with
  | none =>
    have hfailed : failed active ⟨tag, attributes, none⟩ = setDiagnostic active tag attributes := by
      unfold failed setDiagnostic
      simp [DiagnosticElement.text, DiagnosticElement.outcome]
    show State.updateActive _ (emptyDiagnostic tag attributes) = _
    unfold State.updateActive emptyDiagnostic absorb
    rw [hfailed]
    simp only [Option.map_some, DiagnosticElement.isFlaky, decide_eq_true_eq]
  | some body =>
    show (body.map Other.event ++ [Event.close (.diagnostic tag)]).foldl (step secondsToMs)
      ⟨suites, some (openDiagnostic tag attributes active), cases⟩ = _
    rw [List.foldl_append, run_body body suites cases rfl]
    show (⟨suites, some (closeDiagnostic _), cases⟩ : State) = _
    have hclose : closeDiagnostic { openDiagnostic tag attributes active with
        diagnosticStack := (openDiagnostic tag attributes active).diagnosticStack ++
          body.flatMap Other.content } = absorb active ⟨tag, attributes, some body⟩ := by
      unfold closeDiagnostic openDiagnostic setDiagnostic absorb failed
      obtain ⟨case, kind, message, stack, reading, flaky, prior⟩ := active
      obtain ⟨hreading, hflaky⟩ := h
      dsimp only at hreading hflaky
      subst hreading hflaky
      by_cases htag : tag = .flakyFailure
      · subst htag
        by_cases hmessage : ((attributeValue attributes "message").getD []).isEmpty = true
        · simp [hmessage, DiagnosticElement.isFlaky, DiagnosticElement.text,
            DiagnosticElement.outcome, finishFlakyAttempt]
        · simp [hmessage, DiagnosticElement.isFlaky, DiagnosticElement.text,
            DiagnosticElement.outcome, finishFlakyAttempt]
      · by_cases hmessage : ((attributeValue attributes "message").getD []).isEmpty = true
        · simp [hmessage, htag, DiagnosticElement.isFlaky, DiagnosticElement.text,
            DiagnosticElement.outcome]
        · simp [hmessage, htag, DiagnosticElement.isFlaky, DiagnosticElement.text,
            DiagnosticElement.outcome]
    rw [hclose]

/-! ## A test case -/

/-- The diagnostics among the children of a test case. -/
def Child.diagnostic? : Child → Option DiagnosticElement
  | .diagnostic d => some d
  | .other _ => none

/-- What stands between the diagnostics does nothing. -/
theorem run_children (children : List Child) (suites : List Text) (cases : List Case)
    {active : ActiveCase} (h : active.Resting) :
    (children.flatMap Child.events).foldl (step secondsToMs) ⟨suites, some active, cases⟩ =
      ⟨suites, some ((children.filterMap Child.diagnostic?).foldl absorb active), cases⟩ := by
  induction children generalizing active with
  | nil => rfl
  | cons child children ih =>
    rw [List.flatMap_cons, List.foldl_append]
    cases child with
    | diagnostic d =>
      show (children.flatMap Child.events).foldl (step secondsToMs)
        (d.events.foldl (step secondsToMs) ⟨suites, some active, cases⟩) = _
      rw [run_diagnostic d suites cases h, ih (absorb_resting h d)]
      rfl
    | other e =>
      have hother : (Child.other e).events.foldl (step secondsToMs)
          ⟨suites, some active, cases⟩ = ⟨suites, some active, cases⟩ := by
        cases e with
        | text content =>
          show State.updateActive _ (readText content) = _
          unfold State.updateActive readText
          simp [h.diagnostic]
        | _ => rfl
      rw [hother, ih h]
      rfl

/-- The case that is read when all diagnostics of a test case have been. -/
def readCase (base : Case) (ds : List DiagnosticElement) : ActiveCase :=
  ds.foldl absorb (ActiveCase.new base)

theorem diagnostics_eq (test : TestCase) :
    test.diagnostics = (test.children.getD []).filterMap Child.diagnostic? := by
  unfold TestCase.diagnostics
  congr 1

/-- A test case adds what `finishCase` makes of its diagnostics. -/
theorem run_test (test : TestCase) (suites : List Text) (cases : List Case) :
    test.events.foldl (step secondsToMs) ⟨suites, none, cases⟩ =
      ⟨suites, none, cases ++ finishCase
        (readCase (newCase secondsToMs suites test.attributes) test.diagnostics)⟩ := by
  rw [diagnostics_eq]
  obtain ⟨attributes, children⟩ := test
  cases children with
  | none => rfl
  | some children =>
    have hnew : (ActiveCase.new (newCase secondsToMs suites attributes)).Resting := ⟨rfl, rfl⟩
    show (children.flatMap Child.events ++ [Event.close .testcase]).foldl (step secondsToMs)
      ⟨suites, some (ActiveCase.new (newCase secondsToMs suites attributes)), cases⟩ = _
    rw [List.foldl_append, run_children children suites cases hnew]
    rfl

/-- Of the suites that are open only the last one shows. -/
theorem newCase_suites (suites : List Text) (attributes : Attributes) :
    newCase secondsToMs suites attributes =
      newCase secondsToMs [suites.getLast?.getD junit] attributes := rfl

/-! ## A report -/

/-- The cases that the loop makes of a test case. -/
def readTest (secondsToMs : Option Text → Option Nat) (test : Text × TestCase) : List Case :=
  finishCase (readCase (newCase secondsToMs [test.1] test.2.attributes) test.2.diagnostics)

mutual

theorem run_item (item : Item) (suites : List Text) (cases : List Case) :
    item.events.foldl (step secondsToMs) ⟨suites, none, cases⟩ =
      ⟨suites, none, cases ++
        (item.tests (suites.getLast?.getD junit)).flatMap (readTest secondsToMs)⟩ := by
  cases item with
  | suite attributes items =>
    unfold Item.events Item.tests
    rw [List.foldl_cons, List.foldl_append]
    show [Event.close .testsuite].foldl (step secondsToMs)
      ((itemsEvents items).foldl (step secondsToMs)
        ⟨suites ++ [(attributeValue attributes "name").getD junit], none, cases⟩) = _
    rw [run_items items]
    simp [step]
  | emptySuite attributes => simp [Item.events, Item.tests, step]
  | test test =>
    unfold Item.events Item.tests
    rw [run_test, newCase_suites]
    simp [readTest]
  | other e => cases e <;> simp [Item.events, Item.tests, Other.event, step, State.updateActive]

theorem run_items (items : List Item) (suites : List Text) (cases : List Case) :
    (itemsEvents items).foldl (step secondsToMs) ⟨suites, none, cases⟩ =
      ⟨suites, none, cases ++
        (itemsTests (suites.getLast?.getD junit) items).flatMap (readTest secondsToMs)⟩ := by
  cases items with
  | nil => simp [itemsEvents, itemsTests]
  | cons item items =>
    unfold itemsEvents itemsTests
    rw [List.foldl_append, run_item, run_items]
    simp

end

/-! ## The attempts of a test case -/

theorem readCase_concat (base : Case) (ds : List DiagnosticElement) (d : DiagnosticElement) :
    readCase base (ds ++ [d]) = absorb (readCase base ds) d := by
  unfold readCase
  rw [List.foldl_append]
  rfl

/-- The attempt that a flaky failure stands for. -/
def flakyAttempt (base : Case) (d : DiagnosticElement) (ordinal : Nat) : Case :=
  { base with
    outcome := d.outcome, diagnostic := some d.diagnostic, attemptOrdinal := ordinal }

theorem flakyAttempts_concat (base : Case) (ds : List DiagnosticElement)
    (d : DiagnosticElement) :
    flakyAttempts base (ds ++ [d]) =
      if d.isFlaky then
        flakyAttempts base ds ++ [flakyAttempt base d ((flakyAttempts base ds).length + 1)]
      else flakyAttempts base ds := by
  unfold flakyAttempts
  rw [List.filter_append]
  cases hflaky : d.isFlaky with
  | true => simp [hflaky, flakyAttempt]
  | false => simp [hflaky]

/-- What stays of the case that is read: its own fields, and as many attempts as flaky
failures, all with the total they began with. -/
structure Reads (base : Case) (ds : List DiagnosticElement) (active : ActiveCase) : Prop where
  case : active.case = { base with outcome := active.case.outcome }
  length : active.priorAttempts.length = (flakyAttempts base ds).length
  totals : ∀ attempt ∈ active.priorAttempts, attempt.totalAttempts = base.totalAttempts

theorem readCase_reads (base : Case) (ds : List DiagnosticElement) :
    Reads base ds (readCase base ds) := by
  induction ds using List.reverseRecOn with
  | nil => exact ⟨rfl, rfl, by simp [readCase, ActiveCase.new]⟩
  | append_singleton ds d ih =>
    have hcase : (failed (readCase base ds) d).case = { base with outcome := d.outcome } := by
      show { (readCase base ds).case with outcome := d.outcome } = _
      rw [ih.case]
    rw [readCase_concat]
    unfold absorb
    cases hflaky : d.isFlaky with
    | true =>
      refine ⟨?_, ?_, ?_⟩
      · show { (failed (readCase base ds) d).case with outcome := .pass } = _
        rw [hcase]
        rfl
      · rw [flakyAttempts_concat, if_pos hflaky]
        simp [finishFlakyAttempt, failed, ih.length]
      · intro attempt hattempt
        simp only [finishFlakyAttempt, failed, if_true, List.mem_append,
          List.mem_singleton] at hattempt
        rcases hattempt with hattempt | rfl
        · exact ih.totals attempt hattempt
        · show (failed (readCase base ds) d).case.totalAttempts = _
          rw [hcase]
    | false =>
      refine ⟨hcase, ?_, ih.totals⟩
      rw [flakyAttempts_concat, hflaky]
      exact ih.length

/-- No failure or error has a text. -/
def Clean (ds : List DiagnosticElement) : Prop :=
  ∀ d ∈ ds, d.isFlaky = false → d.text = []

theorem clean_concat {ds : List DiagnosticElement} {d : DiagnosticElement} :
    Clean (ds ++ [d]) ↔ Clean ds ∧ (d.isFlaky = false → d.text = []) := by
  unfold Clean
  simp only [List.mem_append, List.mem_singleton, or_imp, forall_and, forall_eq]

/-- The diagnostic of an element that is read on its own. -/
theorem failed_diagnostic {active : ActiveCase} {d : DiagnosticElement} :
    (⟨diagnosticKind d.tag d.attributes, (failed active d).diagnosticMessage,
      (failed active d).diagnosticStack⟩ : Diagnostic) = d.diagnostic ↔
      active.diagnosticStack = [] := by
  unfold failed DiagnosticElement.diagnostic
  constructor
  · intro h
    have hstack : active.diagnosticStack ++ d.text = d.text := congrArg Diagnostic.stack h
    simpa using hstack
  · intro hstack
    obtain ⟨tag, attributes, body⟩ := d
    cases body with
    | none =>
      by_cases hmessage : (attributeValue attributes "message").getD [] = []
      · simp [hstack, hmessage, DiagnosticElement.text]
      · simp [hstack, hmessage]
    | some body => simp [hstack]

/-- The attempts are those of the flaky failures, with no text left over, just if no failure
or error among them has a text. -/
theorem attempts_iff (base : Case) (ds : List DiagnosticElement) :
    ((readCase base ds).priorAttempts = flakyAttempts base ds ∧
      (readCase base ds).diagnosticStack = []) ↔ Clean ds := by
  induction ds using List.reverseRecOn with
  | nil => simp [readCase, ActiveCase.new, flakyAttempts, Clean]
  | append_singleton ds d ih =>
    have hreads := readCase_reads base ds
    rw [readCase_concat, flakyAttempts_concat, clean_concat, ← ih]
    unfold absorb
    cases hflaky : d.isFlaky with
    | true =>
      have hattempt : (finishFlakyAttempt (failed (readCase base ds) d)).priorAttempts =
          (readCase base ds).priorAttempts ++ [{ base with
            outcome := d.outcome
            diagnostic := some ⟨diagnosticKind d.tag d.attributes,
              (failed (readCase base ds) d).diagnosticMessage,
              (failed (readCase base ds) d).diagnosticStack⟩
            attemptOrdinal := (flakyAttempts base ds).length + 1 }] := by
        unfold finishFlakyAttempt
        simp only [failed, Option.map_some]
        rw [hreads.case, hreads.length]
      have hstack : (finishFlakyAttempt (failed (readCase base ds) d)).diagnosticStack = [] :=
        rfl
      simp only [if_true, hattempt, hstack, and_true, reduceCtorEq, false_imp_iff]
      rw [← List.concat_eq_append, ← List.concat_eq_append, List.concat_inj,
        ← failed_diagnostic (d := d)]
      unfold flakyAttempt
      simp
    | false =>
      simp only [Bool.false_eq_true, if_false, true_imp_iff]
      show (_ ∧ (readCase base ds).diagnosticStack ++ d.text = []) ↔ _
      rw [List.append_eq_nil_iff, and_assoc]
      rfl

/-! ## When the cases are those of the report -/

/-- The total hides nothing when it was the same before. -/
theorem map_withTotal_inj {n total : Nat} {cases cases' : List Case}
    (h : ∀ case ∈ cases, case.totalAttempts = n) (h' : ∀ case ∈ cases', case.totalAttempts = n)
    (heq : cases.map (Case.withTotal total) = cases'.map (Case.withTotal total)) :
    cases = cases' := by
  have hback : ∀ l : List Case, (∀ case ∈ l, case.totalAttempts = n) →
      (l.map (Case.withTotal total)).map (Case.withTotal n) = l := by
    intro l hl
    rw [List.map_map]
    refine (List.map_congr_left fun case hcase => ?_).trans (List.map_id l)
    obtain rfl := hl case hcase
    rfl
  rw [← hback cases h, ← hback cases' h', heq]

theorem flakyAttempts_totals (base : Case) (ds : List DiagnosticElement) :
    ∀ attempt ∈ flakyAttempts base ds, attempt.totalAttempts = base.totalAttempts := by
  intro attempt hattempt
  obtain ⟨i, hi, rfl⟩ := List.mem_mapIdx.mp hattempt
  rfl

/-- The last attempt of a test case. -/
def finalAttempt (base : Case) (ds : List DiagnosticElement) : Case :=
  { base with
    outcome := ((lastFailure ds).map DiagnosticElement.outcome).getD .pass
    diagnostic := (lastFailure ds).map DiagnosticElement.diagnostic
    attemptOrdinal := (flakyAttempts base ds).length + 1
    totalAttempts := (flakyAttempts base ds).length + 1 }

/-- The last attempt that the loop finds. -/
def readFinal (active : ActiveCase) : Case :=
  { active.case with
    diagnostic := (active.diagnosticKind.map fun kind =>
      ⟨kind, active.diagnosticMessage, active.diagnosticStack⟩).or active.case.diagnostic
    attemptOrdinal := active.priorAttempts.length + 1
    totalAttempts := active.priorAttempts.length + 1 }

theorem cases_eq (suite : Text) (test : TestCase) :
    test.cases secondsToMs suite =
      let base := newCase secondsToMs [suite] test.attributes
      (flakyAttempts base test.diagnostics).map
          (Case.withTotal ((flakyAttempts base test.diagnostics).length + 1)) ++
        [finalAttempt base test.diagnostics] := rfl

theorem finishCase_iff_attempts (base : Case) (ds : List DiagnosticElement) :
    finishCase (readCase base ds) =
        (flakyAttempts base ds).map (Case.withTotal ((flakyAttempts base ds).length + 1)) ++
          [finalAttempt base ds] ↔
      (readCase base ds).priorAttempts = flakyAttempts base ds ∧
        readFinal (readCase base ds) = finalAttempt base ds := by
  have hreads := readCase_reads base ds
  show (readCase base ds).priorAttempts.map _ ++ [readFinal (readCase base ds)] = _ ↔ _
  rw [← List.concat_eq_append, ← List.concat_eq_append, List.concat_inj, hreads.length]
  constructor
  · intro ⟨hattempts, hfinal⟩
    exact ⟨map_withTotal_inj hreads.totals (flakyAttempts_totals base ds) hattempts, hfinal⟩
  · intro ⟨hattempts, hfinal⟩
    exact ⟨by rw [hattempts], hfinal⟩

theorem lastFailure_concat_failure {ds : List DiagnosticElement} {d : DiagnosticElement}
    (h : d.isFlaky = false) : lastFailure (ds ++ [d]) = some d := by
  simp [lastFailure, List.filter_append, h]

theorem lastFailure_eq_none {ds : List DiagnosticElement} :
    lastFailure ds = none ↔ ∀ d ∈ ds, d.isFlaky = true := by
  simp [lastFailure]

/-- At the end of a test case that ends in a flaky failure the loop finds a pass. -/
theorem readFinal_flaky {base : Case} (hbase : base.diagnostic = none)
    {ds : List DiagnosticElement} {d : DiagnosticElement} (h : d.isFlaky = true) :
    readFinal (readCase base (ds ++ [d])) = finalAttempt base (ds ++ [d]) ↔
      lastFailure (ds ++ [d]) = none := by
  have hreads := readCase_reads base (ds ++ [d])
  have hfinal : readFinal (readCase base (ds ++ [d])) = { base with
      outcome := .pass
      diagnostic := none
      attemptOrdinal := (flakyAttempts base (ds ++ [d])).length + 1
      totalAttempts := (flakyAttempts base (ds ++ [d])).length + 1 } := by
    unfold readFinal
    rw [hreads.length, hreads.case, readCase_concat]
    unfold absorb
    rw [if_pos h]
    simp [finishFlakyAttempt, hbase]
  rw [hfinal]
  unfold finalAttempt
  cases lastFailure (ds ++ [d]) with
  | none => simp
  | some e => simp

/-- At the end of a test case that ends in a failure the loop finds that failure, with all
text that there was before it. -/
theorem readFinal_failure {base : Case} {ds : List DiagnosticElement} {d : DiagnosticElement}
    (h : d.isFlaky = false) :
    readFinal (readCase base (ds ++ [d])) = finalAttempt base (ds ++ [d]) ↔
      (readCase base ds).diagnosticStack = [] := by
  have hreads := readCase_reads base (ds ++ [d])
  have hread : readCase base (ds ++ [d]) = failed (readCase base ds) d := by
    rw [readCase_concat]
    unfold absorb
    rw [h]
    rfl
  have hfinal : readFinal (readCase base (ds ++ [d])) = { base with
      outcome := d.outcome
      diagnostic := some ⟨diagnosticKind d.tag d.attributes,
        (failed (readCase base ds) d).diagnosticMessage,
        (failed (readCase base ds) d).diagnosticStack⟩
      attemptOrdinal := (flakyAttempts base (ds ++ [d])).length + 1
      totalAttempts := (flakyAttempts base (ds ++ [d])).length + 1 } := by
    unfold readFinal
    rw [hreads.length, hreads.case, hread]
    rfl
  rw [hfinal, ← failed_diagnostic (d := d)]
  unfold finalAttempt
  rw [lastFailure_concat_failure h]
  simp

/-- The cases are those of the report just if the test case is separable. -/
theorem finishCase_iff {base : Case} (hpass : base.outcome = .pass)
    (hbase : base.diagnostic = none) (ds : List DiagnosticElement) :
    finishCase (readCase base ds) =
        (flakyAttempts base ds).map (Case.withTotal ((flakyAttempts base ds).length + 1)) ++
          [finalAttempt base ds] ↔
      Separable ds := by
  rw [finishCase_iff_attempts]
  rcases List.eq_nil_or_concat ds with rfl | ⟨init, d, rfl⟩
  · refine ⟨fun _ => ⟨by simp, by simp⟩, fun _ => ⟨rfl, ?_⟩⟩
    obtain ⟨suite, name, className, duration, outcome, diagnostic, ordinal, total⟩ := base
    dsimp only at hpass hbase
    subst hpass hbase
    rfl
  · rw [List.concat_eq_append]
    cases hflaky : d.isFlaky with
    | true =>
      rw [readFinal_flaky hbase hflaky, lastFailure_eq_none]
      constructor
      · intro ⟨_, hall⟩
        refine ⟨fun _ _ _ => hall, fun e he hfailure => ?_⟩
        rw [hall e (List.dropLast_subset _ he)] at hfailure
        cases hfailure
      · intro hseparable
        have hall := hseparable.last d List.getLast?_concat hflaky
        have hclean : Clean (init ++ [d]) := by
          intro e he hfailure
          rw [hall e he] at hfailure
          cases hfailure
        exact ⟨((attempts_iff base _).mpr hclean).1, hall⟩
    | false =>
      have hprior : (readCase base (init ++ [d])).priorAttempts =
          (readCase base init).priorAttempts := by
        rw [readCase_concat]
        unfold absorb
        rw [hflaky]
        rfl
      rw [readFinal_failure hflaky, hprior, flakyAttempts_concat, hflaky]
      refine (attempts_iff base init).trans ⟨fun hclean => ⟨?_, ?_⟩, fun hseparable => ?_⟩
      · intro e he hflaky'
        obtain rfl : d = e := by simpa using he
        rw [hflaky] at hflaky'
        cases hflaky'
      · rw [List.dropLast_concat]
        exact hclean
      · have htexts := hseparable.texts
        rw [List.dropLast_concat] at htexts
        exact htexts

theorem readTest_iff (suite : Text) (test : TestCase) :
    readTest secondsToMs (suite, test) = test.cases secondsToMs suite ↔
      Separable test.diagnostics :=
  finishCase_iff rfl rfl test.diagnostics

/-- As many cases come out as there should be, whatever they are. -/
theorem readTest_length (suite : Text) (test : TestCase) :
    (readTest secondsToMs (suite, test)).length = (test.cases secondsToMs suite).length := by
  have hreads := readCase_reads (newCase secondsToMs [suite] test.attributes) test.diagnostics
  rw [cases_eq]
  unfold readTest finishCase
  simp [hreads.length]

/-- Two lists of blocks of the same lengths are one list just if the blocks are the same. -/
theorem flatMap_eq_iff {α β : Type} {f g : α → List β} (l : List α)
    (h : ∀ a ∈ l, (f a).length = (g a).length) :
    l.flatMap f = l.flatMap g ↔ ∀ a ∈ l, f a = g a := by
  induction l with
  | nil => simp
  | cons a l ih =>
    rw [List.flatMap_cons, List.flatMap_cons, List.forall_mem_cons,
      ← ih fun b hb => h b (List.mem_cons_of_mem _ hb)]
    constructor
    · intro heq
      exact List.append_inj heq (h a List.mem_cons_self)
    · intro ⟨hhead, htail⟩
      rw [hhead, htail]

/-! ## `summarize` -/

/-- Whether `summarize` counts a case as a final failure. -/
def Case.isFinalFailure (case : Case) : Bool :=
  decide (case.attemptOrdinal = case.totalAttempts ∧ case.outcome ≠ .pass)

/-- The counters of the outcomes count every case. -/
def Summary.counted (summary : Summary) : Nat :=
  summary.passed + summary.failed + summary.errors

theorem count_spec (summary : Summary) (case : Case) :
    (count summary case).total = summary.total ∧
      (count summary case).counted = summary.counted + 1 ∧
      (count summary case).finalFailures =
        summary.finalFailures + if case.isFinalFailure then 1 else 0 := by
  unfold count Case.isFinalFailure Summary.counted
  by_cases hfinal : case.attemptOrdinal = case.totalAttempts ∧ case.outcome ≠ .pass
  · simp only [hfinal, and_self, not_false_eq_true, if_true, decide_true, ne_eq]
    cases case.outcome <;> simp <;> omega
  · simp only [hfinal, if_false, decide_false, Bool.false_eq_true, Nat.add_zero]
    cases case.outcome <;> simp <;> omega

theorem foldl_count (cases : List Case) (summary : Summary) :
    (cases.foldl count summary).total = summary.total ∧
      (cases.foldl count summary).counted = summary.counted + cases.length ∧
      (cases.foldl count summary).finalFailures =
        summary.finalFailures + cases.countP Case.isFinalFailure := by
  induction cases generalizing summary with
  | nil => exact ⟨rfl, rfl, rfl⟩
  | cons case cases ih =>
    obtain ⟨htotal, hcounted, hfailures⟩ := ih (count summary case)
    obtain ⟨htotal', hcounted', hfailures'⟩ := count_spec summary case
    rw [List.foldl_cons, List.countP_cons, List.length_cons]
    exact ⟨htotal.trans htotal', by omega, by omega⟩

/-- The counters add up, whatever the cases are. -/
theorem summarize_adds_up (cases : List Case) :
    (summarize cases).total = cases.length ∧ (summarize cases).counted = cases.length := by
  obtain ⟨htotal, hcounted, _⟩ := foldl_count cases ⟨cases.length, 0, 0, 0, 0⟩
  exact ⟨htotal, hcounted.trans (by simp [Summary.counted])⟩

theorem summarize_finalFailures (cases : List Case) :
    (summarize cases).finalFailures = cases.countP Case.isFinalFailure := by
  obtain ⟨_, _, hfailures⟩ := foldl_count cases ⟨cases.length, 0, 0, 0, 0⟩
  exact hfailures.trans (Nat.zero_add _)

theorem diagnosticOutcome_ne_pass (tag : DiagnosticTag) (kind : Text) :
    diagnosticOutcome tag kind ≠ .pass := by
  unfold diagnosticOutcome
  split <;> simp

/-- The last attempt passes just if there is no failure or error. -/
theorem finalAttempt_passes (base : Case) (test : TestCase) :
    (finalAttempt base test.diagnostics).outcome = .pass ↔ test.hasFailed = false := by
  show ((lastFailure test.diagnostics).map DiagnosticElement.outcome).getD .pass = .pass ↔ _
  have hnone : lastFailure test.diagnostics = none ↔ ∀ d ∈ test.diagnostics, d.isFlaky = true :=
    lastFailure_eq_none
  cases hlast : lastFailure test.diagnostics with
  | none => simpa [TestCase.hasFailed] using hnone.mp hlast
  | some d =>
    have hd : d ∈ test.diagnostics.filter fun d => !d.isFlaky := List.mem_of_getLast? hlast
    have hfailed : test.hasFailed = true := by
      unfold TestCase.hasFailed
      rw [List.any_eq_true]
      exact ⟨d, (List.mem_filter.mp hd).1, (List.mem_filter.mp hd).2⟩
    have hpass : d.outcome ≠ .pass := diagnosticOutcome_ne_pass _ _
    simp [hfailed, hpass]

/-- Of the cases of a test case only the last one is final. -/
theorem cases_finalFailures (suite : Text) (test : TestCase) :
    (test.cases secondsToMs suite).countP Case.isFinalFailure =
      if test.hasFailed then 1 else 0 := by
  rw [cases_eq, List.countP_append]
  have hattempts : ∀ base, ((flakyAttempts base test.diagnostics).map (Case.withTotal
      ((flakyAttempts base test.diagnostics).length + 1))).countP Case.isFinalFailure = 0 := by
    intro base
    rw [List.countP_eq_zero]
    intro attempt hattempt
    obtain ⟨attempt, hmem, rfl⟩ := List.mem_map.mp hattempt
    obtain ⟨i, hi, rfl⟩ := List.mem_mapIdx.mp hmem
    have hlength : (flakyAttempts base test.diagnostics).length =
        (test.diagnostics.filter DiagnosticElement.isFlaky).length := List.length_mapIdx
    intro hfinal
    have hordinal := (of_decide_eq_true hfinal).1
    change i + 1 = (flakyAttempts base test.diagnostics).length + 1 at hordinal
    omega
  rw [hattempts, Nat.zero_add, List.countP_singleton]
  have hpasses := finalAttempt_passes (newCase secondsToMs [suite] test.attributes) test
  cases hfailed : test.hasFailed with
  | true => simp_all [Case.isFinalFailure, finalAttempt]
  | false => simp_all [Case.isFinalFailure, finalAttempt]

theorem flatMap_finalFailures (tests : List (Text × TestCase)) :
    (tests.flatMap fun test => test.2.cases secondsToMs test.1).countP Case.isFinalFailure =
      tests.countP fun test => test.2.hasFailed := by
  induction tests with
  | nil => rfl
  | cons test tests ih =>
    rw [List.flatMap_cons, List.countP_append, List.countP_cons, ih, cases_finalFailures]
    omega

/-! ## The converter -/

/-- Every attempt comes out once, with what its own element says, and the counters are
those of the report. -/
structure Faithful (secondsToMs : Option Text → Option Nat) (items : List Item) : Prop where
  cases : parse secondsToMs (itemsEvents items) =
    (itemsTests junit items).flatMap fun test => test.2.cases secondsToMs test.1
  total : (summarize (parse secondsToMs (itemsEvents items))).total =
    (parse secondsToMs (itemsEvents items)).length
  counted : (summarize (parse secondsToMs (itemsEvents items))).counted =
    (parse secondsToMs (itemsEvents items)).length
  finalFailures : (summarize (parse secondsToMs (itemsEvents items))).finalFailures =
    (itemsTests junit items).countP fun test => test.2.hasFailed

theorem parse_eq (items : List Item) :
    parse secondsToMs (itemsEvents items) =
      (itemsTests junit items).flatMap (readTest secondsToMs) := by
  unfold parse
  rw [run_items]
  rfl

/-- The converter is right about a report just if it is about each test case, and it is
about those whose failures and errors can be told from what stands before them. -/
theorem faithful_iff (secondsToMs : Option Text → Option Nat) (items : List Item) :
    Faithful secondsToMs items ↔
      ∀ test ∈ itemsTests junit items, Separable test.2.diagnostics := by
  have hcases : (parse secondsToMs (itemsEvents items) =
      (itemsTests junit items).flatMap fun test => test.2.cases secondsToMs test.1) ↔
        ∀ test ∈ itemsTests junit items, Separable test.2.diagnostics := by
    rw [parse_eq, flatMap_eq_iff _ fun test _ => readTest_length test.1 test.2]
    exact forall₂_congr fun test _ => readTest_iff test.1 test.2
  constructor
  · intro hfaithful
    exact hcases.mp hfaithful.cases
  · intro hseparable
    have heq := hcases.mpr hseparable
    obtain ⟨htotal, hcounted⟩ := summarize_adds_up (parse secondsToMs (itemsEvents items))
    refine ⟨heq, htotal, hcounted, ?_⟩
    rw [summarize_finalFailures, heq, flatMap_finalFailures]

/-- A test case with a failure, and then a flaky failure. -/
def forgottenFailure : List Item :=
  [.test ⟨[("name".toList, "checkout".toList)],
    some [.diagnostic ⟨.failure, [("message".toList, "refused".toList)], none⟩,
      .diagnostic ⟨.flakyFailure, [("message".toList, "slow".toList)], none⟩]⟩]

/-- Its last case is a pass, and no failure is counted. -/
theorem failure_passes : ¬ Faithful (fun _ => none) forgottenFailure := by
  intro hfaithful
  exact absurd hfaithful.finalFailures (by decide)

end CommercePlayground.Cli.TestReport
