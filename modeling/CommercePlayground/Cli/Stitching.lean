/-
CommercePlayground.Cli.Stitching — the spans below the tests of a run.

`analyze` of `test_verify.rs` holds the spans that were indexed for an invocation against
the acceptance contract. Its last check follows the spans down from every test and counts
those that are no tests themselves. A trace is the list of its decoded spans here.
-/
import CommercePlayground.Cli.Checks
import CommercePlayground.Lib.Json
import CommercePlayground.Lib.Worklist

namespace CommercePlayground.Cli.Stitching

open Lib

/-! ## Spans -/

structure DecodedSpan where
  spanId : Text
  parentSpanId : Option Text
  name : Text
  statusCode : Text
  attributes : Members
  resource : Members

/-- `attribute_string`. -/
def attributeString (map : Members) (key : String) : Option Text :=
  match Json.get map key with
  | some (.text value) => some value
  | _ => none

/-- `attribute_i64`. -/
def attributeI64 (map : Members) (key : String) : Option Int :=
  match Json.get map key with
  | some (.int value) =>
    if -9223372036854775808 ≤ value ∧ value ≤ 9223372036854775807 then some value else none
  | _ => none

/-- `attributes.contains_key(TEST_CASE_NAME)` -/
def DecodedSpan.isTest (span : DecodedSpan) : Bool :=
  (Json.get span.attributes "test.case.name").isSome

/-! ## The traversal -/

/-- The entry of `by_parent`. -/
def children (spans : List DecodedSpan) (parent : Text) : List DecodedSpan :=
  spans.filter fun span => decide (span.parentSpanId = some parent)

/-- Spans by their ids, with an edge from a parent to each child. -/
def spanGraph (spans : List DecodedSpan) : Graph Text where
  nodes := spans.filterMap DecodedSpan.parentSpanId
  next := fun parent => (children spans parent).map DecodedSpan.spanId
  closed := by
    intro parent hparent
    have hnone : children spans parent = [] := by
      refine List.filter_eq_nil_iff.mpr fun span hspan hchild => hparent ?_
      exact List.mem_filterMap.mpr ⟨span, hspan, of_decide_eq_true hchild⟩
    rw [hnone]
    rfl

/-- Each child is counted on the way to the frontier, unless it is a test. -/
def countChildren (spans : List DecodedSpan) (descendants : Nat) (parent : Text) : Nat :=
  descendants + ((children spans parent).filter fun child => !child.isTest).length

/-- The elements of a hash set, in the order in which it happens to hand them out. -/
structure HashOrder where
  iterate : List Text → List Text
  perm : ∀ ids, (iterate ids).Perm ids

/-- `descendants` after the loop, which takes from the end of its frontier. -/
def descendants (order : HashOrder) (spans : List DecodedSpan) : Nat :=
  let testIds := order.iterate ((spans.filter DecodedSpan.isTest).map DecodedSpan.spanId).dedup
  ((spanGraph spans).run .stack (countChildren spans) testIds.reverse [] 0).2

/-! ## `analyze` -/

structure Summary where
  traces : Nat
  testAttempts : Nat
  appDescendants : Nat
  deriving DecidableEq

/-- What `analyze` asks of the spans before it looks at their links. -/
def ensureEvidence (invocationId : Text) (spans : List DecodedSpan) : Except String Unit := do
  let tests := spans.filter DecodedSpan.isTest
  ensure (spans.any fun span => decide (span.name = "cli.command".toList))
    "exported cli.command wrapper parent is missing"
  ensure (!tests.isEmpty) "no test-attempt spans were indexed"
  ensure (tests.all fun span =>
      decide (attributeString span.attributes "cli.invocation.id" = some invocationId) ||
        decide (attributeString span.resource "cli.invocation.id" = some invocationId))
    "one or more test spans lost the invocation identity"
  ensure (tests.any fun span => (attributeString span.attributes "parallax.test.id").isSome)
    "explicit test identity fixture is missing"
  ensure (tests.any fun span => (attributeString span.attributes "test.case.parameters").isSome)
    "parameterized-test fixture is missing"
  ensure (tests.any fun span =>
      ["test.configuration.os", "test.configuration.environment", "test.configuration.browser"].any
        fun key => (Json.get span.attributes key).isSome)
    "test configuration attributes are missing"
  ensure (tests.any fun span =>
      (attributeI64 span.attributes "test.attempt.ordinal").any fun ordinal => decide (1 < ordinal))
    "retry attempt evidence is missing"
  ensure (tests.any fun span =>
      decide (attributeString span.attributes "test.case.result.status" = some "pass".toList))
    "passing test evidence is missing"
  ensure (tests.any fun span =>
      decide (attributeString span.attributes "test.case.failure.kind" =
        some "assertion_failure".toList))
    "assertion-failure evidence is missing"
  ensure (tests.any fun span =>
      decide (attributeString span.attributes "test.case.failure.kind" =
        some "harness_error".toList))
    "harness-error evidence is missing"
  ensure (tests.all fun span => (attributeString span.resource "vcs.ref.head.revision").isSome)
    "test resource revision is missing"
  ensure (tests.all fun span => (attributeString span.resource "service.version").isSome)
    "test resource service version is missing"
  ensure (tests.any fun span =>
      decide (span.statusCode = "ERROR".toList ∨ span.statusCode = "STATUS_CODE_ERROR".toList))
    "failed test span status is not ERROR"

/-- The check of the links. -/
def ensureStitched (stack : String) (descendants : Nat) : Except String Unit :=
  ensure (decide (0 < descendants))
    (stack ++ " test spans have no stitched application descendants")

/-- `analyze`, of traces whose spans have been decoded. -/
def analyze (order : HashOrder) (invocationId : Text) (stack : String)
    (traces : List (List DecodedSpan)) : Except String Summary := do
  let spans := traces.flatten
  ensureEvidence invocationId spans
  let appDescendants := descendants order spans
  ensureStitched stack appDescendants
  return ⟨traces.length, (spans.filter DecodedSpan.isTest).length, appDescendants⟩

end CommercePlayground.Cli.Stitching
