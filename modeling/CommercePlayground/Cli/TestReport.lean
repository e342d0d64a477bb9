/-
CommercePlayground.Cli.TestReport — test reports of the command line.

`parse` of `test_report.rs` is one loop over the events of an XML reader, `summarize`
counts what it made. `Item` is the other side: a report as a tree of suites and test
cases, with the events that a reader makes of it and the cases it stands for.
-/
import Mathlib.Data.List.Infix
import CommercePlayground.Lib.Text

namespace CommercePlayground.Cli.TestReport

open Lib

/-! ## Events -/

inductive DiagnosticTag where
  | failure
  | error
  | flakyFailure
  deriving DecidableEq

/-- The names of elements, as far as `parse` tells them apart. -/
inductive Tag where
  | testsuite
  | testcase
  | diagnostic (tag : DiagnosticTag)
  | other (name : Text)
  deriving DecidableEq

abbrev Attributes := List (Text × Text)

/-- An event of the reader; `close` is the end of an element. -/
inductive Event where
  | start (tag : Tag) (attributes : Attributes)
  | empty (tag : Tag) (attributes : Attributes)
  | text (content : Text)
  | close (tag : Tag)
  deriving DecidableEq

/-- `attribute`. -/
def attributeValue (attributes : Attributes) (wanted : String) : Option Text :=
  attributes.lookup wanted.toList

/-! ## `parse` -/

inductive Outcome where
  | pass
  | fail
  | error
  deriving DecidableEq

structure Diagnostic where
  kind : Text
  message : Text
  stack : Text
  deriving DecidableEq

structure Case where
  suite : Text
  name : Text
  className : Option Text
  durationMs : Option Nat
  outcome : Outcome
  diagnostic : Option Diagnostic
  attemptOrdinal : Nat
  totalAttempts : Nat
  deriving DecidableEq

structure ActiveCase where
  case : Case
  diagnosticKind : Option Text
  diagnosticMessage : Text
  diagnosticStack : Text
  readingDiagnostic : Bool
  readingFlaky : Bool
  priorAttempts : List Case
  deriving DecidableEq

/-- What the loop keeps. -/
structure State where
  suites : List Text
  activeCase : Option ActiveCase
  cases : List Case
  deriving DecidableEq

def DiagnosticTag.name : DiagnosticTag → Text
  | .failure => "failure".toList
  | .error => "error".toList
  | .flakyFailure => "flakyFailure".toList

def junit : Text := "JUnit".toList

/-- The case of a `testcase` element; `secondsToMs` is `seconds_to_ms`. -/
def newCase (secondsToMs : Option Text → Option Nat) (suites : List Text)
    (attributes : Attributes) : Case where
  suite := suites.getLast?.getD junit
  name := (attributeValue attributes "name").getD "unnamed".toList
  className := attributeValue attributes "classname"
  durationMs := secondsToMs (attributeValue attributes "time")
  outcome := .pass
  diagnostic := none
  attemptOrdinal := 1
  totalAttempts := 1

def ActiveCase.new (case : Case) : ActiveCase := ⟨case, none, [], [], false, false, []⟩

/-- The kind of a diagnostic, and the outcome it stands for. -/
def diagnosticKind (tag : DiagnosticTag) (attributes : Attributes) : Text :=
  (attributeValue attributes "type").getD tag.name

def diagnosticOutcome (tag : DiagnosticTag) (kind : Text) : Outcome :=
  if tag = .error ∨ "abort".toList <:+: kind ∨ "timeout".toList <:+: kind ∨
      "error".toList <:+: kind then .error
  else .fail

/-- `set_diagnostic`. -/
def setDiagnostic (active : ActiveCase) (tag : DiagnosticTag) (attributes : Attributes) :
    ActiveCase :=
  let kind := diagnosticKind tag attributes
  { active with
    case := { active.case with outcome := diagnosticOutcome tag kind }
    diagnosticKind := some kind
    diagnosticMessage := (attributeValue attributes "message").getD [] }

/-- `finish_flaky_attempt`. -/
def finishFlakyAttempt (active : ActiveCase) : ActiveCase :=
  let diagnostic := active.diagnosticKind.map fun kind =>
    (⟨kind, active.diagnosticMessage, active.diagnosticStack⟩ : Diagnostic)
  let attempt := { active.case with
    diagnostic := diagnostic
    attemptOrdinal := active.priorAttempts.length + 1 }
  { active with
    case := { active.case with outcome := .pass }
    diagnosticKind := none
    diagnosticMessage := if active.diagnosticKind.isSome then [] else active.diagnosticMessage
    diagnosticStack := if active.diagnosticKind.isSome then [] else active.diagnosticStack
    readingFlaky := false
    priorAttempts := active.priorAttempts ++ [attempt] }

/-- The start of a diagnostic element. -/
def openDiagnostic (tag : DiagnosticTag) (attributes : Attributes) (active : ActiveCase) :
    ActiveCase :=
  { setDiagnostic active tag attributes with
    readingDiagnostic := true
    readingFlaky := decide (tag = .flakyFailure) }

/-- A diagnostic element without content. -/
def emptyDiagnostic (tag : DiagnosticTag) (attributes : Attributes) (active : ActiveCase) :
    ActiveCase :=
  let active := setDiagnostic active tag attributes
  if tag = .flakyFailure then finishFlakyAttempt active else active

def readText (content : Text) (active : ActiveCase) : ActiveCase :=
  if active.readingDiagnostic then
    { active with diagnosticStack := active.diagnosticStack ++ content }
  else active

/-- The end of a diagnostic element. -/
def closeDiagnostic (active : ActiveCase) : ActiveCase :=
  let active := if active.diagnosticMessage.isEmpty then
      { active with diagnosticMessage := active.diagnosticStack }
    else active
  let active := { active with readingDiagnostic := false }
  if active.readingFlaky then finishFlakyAttempt active else active

def Case.withTotal (total : Nat) (case : Case) : Case := { case with totalAttempts := total }

/-- The end of a `testcase`. -/
def finishCase (active : ActiveCase) : List Case :=
  let total := active.priorAttempts.length + 1
  active.priorAttempts.map (Case.withTotal total) ++
    [{ active.case with
      diagnostic := (active.diagnosticKind.map fun kind =>
        ⟨kind, active.diagnosticMessage, active.diagnosticStack⟩).or active.case.diagnostic
      attemptOrdinal := total
      totalAttempts := total }]

def State.updateActive (s : State) (f : ActiveCase → ActiveCase) : State :=
  { s with activeCase := s.activeCase.map f }

/-- One round of the loop. -/
def step (secondsToMs : Option Text → Option Nat) (s : State) : Event → State
  | .start .testsuite attributes =>
    { s with suites := s.suites ++ [(attributeValue attributes "name").getD junit] }
  | .close .testsuite => { s with suites := s.suites.dropLast }
  | .start .testcase attributes =>
    { s with activeCase := some (ActiveCase.new (newCase secondsToMs s.suites attributes)) }
  | .empty .testcase attributes =>
    { s with cases := s.cases ++ [newCase secondsToMs s.suites attributes] }
  | .start (.diagnostic tag) attributes => s.updateActive (openDiagnostic tag attributes)
  | .empty (.diagnostic tag) attributes => s.updateActive (emptyDiagnostic tag attributes)
  | .text content => s.updateActive (readText content)
  | .close (.diagnostic _) => s.updateActive closeDiagnostic
  | .close .testcase =>
    match s.activeCase with
    | none => s
    | some active =>
      { s with activeCase := none, cases := s.cases ++ finishCase active }
  | _ => s

/-- `parse`. -/
def parse (secondsToMs : Option Text → Option Nat) (events : List Event) : List Case :=
  (events.foldl (step secondsToMs) ⟨[], none, []⟩).cases

/-! ## `summarize` -/

structure Summary where
  total : Nat
  passed : Nat
  failed : Nat
  errors : Nat
  finalFailures : Nat
  deriving DecidableEq

/-- One round of `summarize`. -/
def count (summary : Summary) (case : Case) : Summary :=
  let summary :=
    match case.outcome with
    | .pass => { summary with passed := summary.passed + 1 }
    | .fail => { summary with failed := summary.failed + 1 }
    | .error => { summary with errors := summary.errors + 1 }
  if case.attemptOrdinal = case.totalAttempts ∧ case.outcome ≠ .pass then
    { summary with finalFailures := summary.finalFailures + 1 }
  else summary

/-- `summarize`. -/
def summarize (cases : List Case) : Summary :=
  cases.foldl count ⟨cases.length, 0, 0, 0, 0⟩

/-! ## Reports -/

/-- An event that is none of a suite, a test case or a diagnostic: other elements, and text.
What stands between them is free. -/
inductive Other where
  | start (name : Text) (attributes : Attributes)
  | empty (name : Text) (attributes : Attributes)
  | text (content : Text)
  | close (name : Text)
  deriving DecidableEq

def Other.event : Other → Event
  | .start name attributes => .start (.other name) attributes
  | .empty name attributes => .empty (.other name) attributes
  | .text content => .text content
  | .close name => .close (.other name)

def Other.content : Other → Text
  | .text content => content
  | _ => []

/-- A `failure`, `error` or `flakyFailure`; without a body it closes itself. -/
structure DiagnosticElement where
  tag : DiagnosticTag
  attributes : Attributes
  body : Option (List Other)
  deriving DecidableEq

def DiagnosticElement.events (d : DiagnosticElement) : List Event :=
  match d.body with
  | none => [.empty (.diagnostic d.tag) d.attributes]
  | some body => .start (.diagnostic d.tag) d.attributes :: (body.map Other.event ++
      [.close (.diagnostic d.tag)])

inductive Child where
  | diagnostic (d : DiagnosticElement)
  | other (e : Other)
  deriving DecidableEq

def Child.events : Child → List Event
  | .diagnostic d => d.events
  | .other e => [e.event]

/-- A `testcase`; without children it closes itself. -/
structure TestCase where
  attributes : Attributes
  children : Option (List Child)
  deriving DecidableEq

def TestCase.events (test : TestCase) : List Event :=
  match test.children with
  | none => [.empty .testcase test.attributes]
  | some children => .start .testcase test.attributes :: (children.flatMap Child.events ++
      [.close .testcase])

/-- Suites and test cases, as deep as one likes, with anything else in between. -/
inductive Item where
  | suite (attributes : Attributes) (items : List Item)
  | emptySuite (attributes : Attributes)
  | test (test : TestCase)
  | other (e : Other)

mutual

/-- What a reader makes of an item. -/
def Item.events : Item → List Event
  | .suite attributes items =>
    .start .testsuite attributes :: (itemsEvents items ++ [.close .testsuite])
  | .emptySuite attributes => [.empty .testsuite attributes]
  | .test test => test.events
  | .other e => [e.event]

def itemsEvents : List Item → List Event
  | [] => []
  | item :: items => item.events ++ itemsEvents items

end

mutual

/-- The test cases of an item in their order, each with the name of its innermost suite. -/
def Item.tests (suite : Text) : Item → List (Text × TestCase)
  | .suite attributes items => itemsTests ((attributeValue attributes "name").getD junit) items
  | .emptySuite _ => []
  | .test test => [(suite, test)]
  | .other _ => []

def itemsTests (suite : Text) : List Item → List (Text × TestCase)
  | [] => []
  | item :: items => item.tests suite ++ itemsTests suite items

end

/-! ## What a report says -/

def DiagnosticElement.isFlaky (d : DiagnosticElement) : Bool := decide (d.tag = .flakyFailure)

/-- The text in an element. -/
def DiagnosticElement.text (d : DiagnosticElement) : Text :=
  (d.body.getD []).flatMap Other.content

/-- The kind, the message and the text of an element; the text stands in for a message. -/
def DiagnosticElement.diagnostic (d : DiagnosticElement) : Diagnostic :=
  let message := (attributeValue d.attributes "message").getD []
  ⟨diagnosticKind d.tag d.attributes, if message.isEmpty then d.text else message, d.text⟩

def DiagnosticElement.outcome (d : DiagnosticElement) : Outcome :=
  diagnosticOutcome d.tag (diagnosticKind d.tag d.attributes)

def TestCase.diagnostics (test : TestCase) : List DiagnosticElement :=
  (test.children.getD []).filterMap fun child =>
    match child with
    | .diagnostic d => some d
    | .other _ => none

/-- The attempts before the last one. -/
def flakyAttempts (base : Case) (ds : List DiagnosticElement) : List Case :=
  (ds.filter DiagnosticElement.isFlaky).mapIdx fun i d =>
    { base with
      outcome := d.outcome, diagnostic := some d.diagnostic, attemptOrdinal := i + 1 }

/-- The last failure or error. -/
def lastFailure (ds : List DiagnosticElement) : Option DiagnosticElement :=
  (ds.filter fun d => !d.isFlaky).getLast?

/-- The cases of a test case: one for each flaky failure and one for the last attempt. -/
def TestCase.cases (secondsToMs : Option Text → Option Nat) (suite : Text) (test : TestCase) :
    List Case :=
  let base := newCase secondsToMs [suite] test.attributes
  let attempts := flakyAttempts base test.diagnostics
  let total := attempts.length + 1
  attempts.map (Case.withTotal total) ++
    [{ base with
      outcome := ((lastFailure test.diagnostics).map DiagnosticElement.outcome).getD .pass
      diagnostic := (lastFailure test.diagnostics).map DiagnosticElement.diagnostic
      attemptOrdinal := total
      totalAttempts := total }]

/-- Whether a test case failed. -/
def TestCase.hasFailed (test : TestCase) : Bool := test.diagnostics.any fun d => !d.isFlaky

/-- What the loop can tell apart: after a failure or error there is no flaky failure at the
end, and only the last diagnostic may be a failure or error with text. -/
structure Separable (ds : List DiagnosticElement) : Prop where
  last : ∀ d, ds.getLast? = some d → d.isFlaky = true → ∀ e ∈ ds, e.isFlaky = true
  texts : ∀ d ∈ ds.dropLast, d.isFlaky = false → d.text = []

end CommercePlayground.Cli.TestReport
