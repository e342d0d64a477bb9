/-
CommercePlayground.Cli.StitchingTheorems — the check counts the spans below tests.

What the search visits are the ids of the tests and of everything below them
(`reach_iff`). Each of these is visited once and counts its children, and a span is the
child of one id only, so no span is counted twice (`descendants_eq`).
-/
import CommercePlayground.Cli.Stitching
import Mathlib.Data.List.Dedup
import Mathlib.Data.List.Perm.Basic
import Mathlib.Logic.Relation

namespace CommercePlayground.Cli.Stitching

open Lib

/-! ## Below a test -/

/-- A link between two of the spans, whatever their traces. -/
def IsParent (spans : List DecodedSpan) (parent child : DecodedSpan) : Prop :=
  parent ∈ spans ∧ child ∈ spans ∧ child.parentSpanId = some parent.spanId

/-- Some strict ancestor is a test. -/
def BelowTest (spans : List DecodedSpan) (span : DecodedSpan) : Prop :=
  ∃ test, test.isTest = true ∧ Relation.TransGen (IsParent spans) test span

/-- A span of the application that a test led to. -/
def Stitched (spans : List DecodedSpan) (span : DecodedSpan) : Prop :=
  span ∈ spans ∧ span.isTest = false ∧ BelowTest spans span

theorem mem_children {spans : List DecodedSpan} {parent : Text} {child : DecodedSpan} :
    child ∈ children spans parent ↔ child ∈ spans ∧ child.parentSpanId = some parent := by
  simp [children]

theorem BelowTest.child {spans : List DecodedSpan} {parent child : DecodedSpan}
    (hparent : parent.isTest = true ∨ BelowTest spans parent)
    (hlink : IsParent spans parent child) : BelowTest spans child := by
  rcases hparent with htest | ⟨test, htest, hbelow⟩
  · exact ⟨parent, htest, .single hlink⟩
  · exact ⟨test, htest, hbelow.tail hlink⟩

theorem BelowTest.parent {spans : List DecodedSpan} {span : DecodedSpan}
    (h : BelowTest spans span) :
    ∃ parent, (parent.isTest = true ∨ BelowTest spans parent) ∧ IsParent spans parent span := by
  obtain ⟨test, htest, hbelow⟩ := h
  cases hbelow with
  | single hlink => exact ⟨test, .inl htest, hlink⟩
  | @tail parent _ hpath hlink => exact ⟨parent, .inr ⟨test, htest, hpath⟩, hlink⟩

/-- The ids that the search visits. -/
theorem reach_iff {spans : List DecodedSpan} {roots : List Text}
    (hroots : ∀ id, id ∈ roots ↔ ∃ test ∈ spans, test.isTest = true ∧ test.spanId = id)
    (id : Text) : (spanGraph spans).Reach roots id ↔
      ∃ span ∈ spans, span.spanId = id ∧ (span.isTest = true ∨ BelowTest spans span) := by
  constructor
  · intro h
    induction h with
    | root hroot =>
      obtain ⟨test, hmem, htest, hid⟩ := (hroots _).mp hroot
      exact ⟨test, hmem, hid, .inl htest⟩
    | step _ hnext ih =>
      obtain ⟨parent, hparent, rfl, hbelow⟩ := ih
      obtain ⟨child, hchild, rfl⟩ := List.mem_map.mp hnext
      obtain ⟨hmem, hlink⟩ := mem_children.mp hchild
      exact ⟨child, hmem, rfl, .inr (BelowTest.child hbelow ⟨hparent, hmem, hlink⟩)⟩
  · rintro ⟨span, hmem, rfl, htest | ⟨test, htest, hpath⟩⟩
    · exact .root ((hroots _).mpr ⟨span, hmem, htest, rfl⟩)
    · have hstep : ∀ parent child, IsParent spans parent child →
          (spanGraph spans).Reach roots parent.spanId →
          (spanGraph spans).Reach roots child.spanId :=
        fun parent child hlink hreach => .step hreach
          (List.mem_map_of_mem (mem_children.mpr ⟨hlink.2.1, hlink.2.2⟩))
      induction hpath with
      | single hlink =>
        exact hstep _ _ hlink (.root ((hroots _).mpr ⟨test, hlink.1, htest, rfl⟩))
      | tail _ hlink ih => exact hstep _ _ hlink (ih hlink.1)

/-! ## Counting -/

/-- The children that one visit counts. -/
def countedChildren (spans : List DecodedSpan) (parent : Text) : List DecodedSpan :=
  (children spans parent).filter fun child => !child.isTest

theorem foldl_countChildren (spans : List DecodedSpan) (visited : List Text) (n : Nat) :
    visited.foldl (countChildren spans) n =
      n + (visited.flatMap (countedChildren spans)).length := by
  induction visited generalizing n with
  | nil => rfl
  | cons id visited ih =>
    rw [List.foldl_cons, ih, List.flatMap_cons, List.length_append, ← Nat.add_assoc]
    rfl

theorem nodup_countedChildren {spans : List DecodedSpan} {visited : List Text}
    (hspans : spans.Nodup) (hvisited : visited.Nodup) :
    (visited.flatMap (countedChildren spans)).Nodup := by
  refine List.nodup_flatMap.mpr ⟨fun id _ => (hspans.filter _).filter _, ?_⟩
  refine hvisited.imp fun {a b} hne => ?_
  -- a span names one parent
  rintro span ha hb
  obtain ⟨-, ha⟩ := mem_children.mp (List.mem_of_mem_filter ha)
  obtain ⟨-, hb⟩ := mem_children.mp (List.mem_of_mem_filter hb)
  exact hne (Option.some.inj (ha.symm.trans hb))

/-- The traversal counts the spans below tests, whatever order the set of test ids has. -/
theorem descendants_eq {spans : List DecodedSpan} (hids : (spans.map DecodedSpan.spanId).Nodup)
    (order : HashOrder) : ∃ counted : List DecodedSpan, counted.Nodup ∧
      (∀ span, span ∈ counted ↔ Stitched spans span) ∧
      descendants order spans = counted.length := by
  unfold descendants
  generalize htestIds :
    order.iterate ((spans.filter DecodedSpan.isTest).map DecodedSpan.spanId).dedup = testIds
  obtain ⟨hnodup, hvisited, hcount⟩ := Graph.run_spec (spanGraph spans) .stack
    (countChildren spans) testIds.reverse 0
  have hroots : ∀ id, id ∈ testIds.reverse ↔
      ∃ test ∈ spans, test.isTest = true ∧ test.spanId = id := by
    intro id
    rw [List.mem_reverse, ← htestIds, (order.perm _).mem_iff, List.mem_dedup, List.mem_map]
    simp only [List.mem_filter, and_assoc]
  simp only
  rw [hcount, foldl_countChildren, Nat.zero_add]
  refine ⟨_, nodup_countedChildren (hids.of_map _) (List.nodup_reverse.mpr hnodup), ?_, rfl⟩
  intro span
  simp only [List.mem_flatMap, List.mem_reverse, hvisited, reach_iff hroots, countedChildren,
    List.mem_filter, mem_children, Bool.not_eq_true']
  constructor
  · rintro ⟨id, ⟨parent, hparent, rfl, hbelow⟩, ⟨hmem, hlink⟩, htest⟩
    exact ⟨hmem, htest, BelowTest.child hbelow ⟨hparent, hmem, hlink⟩⟩
  · rintro ⟨hmem, htest, hbelow⟩
    obtain ⟨parent, hparent, hlink⟩ := hbelow.parent
    exact ⟨parent.spanId, ⟨parent, hlink.1, rfl, hparent⟩, ⟨hmem, hlink.2.2⟩, htest⟩

theorem stitched_perm {spans spans' : List DecodedSpan} (h : spans.Perm spans') :
    Stitched spans = Stitched spans' := by
  have hlinks : IsParent spans = IsParent spans' := by
    funext parent child
    simp only [IsParent, h.mem_iff]
  funext span
  simp only [Stitched, BelowTest, hlinks, h.mem_iff]

/-- The count is that of the spans below tests, each once, in any order of the spans and
of the test ids; the check passes exactly when there is such a span, and `analyze` when
the evidence is complete as well. -/
theorem stitching_check {traces : List (List DecodedSpan)}
    (hids : (traces.flatten.map DecodedSpan.spanId).Nodup) :
    ∃ counted : List DecodedSpan, counted.Nodup ∧
      (∀ span, span ∈ counted ↔ Stitched traces.flatten span) ∧
      (∀ order traces', traces.flatten.Perm (List.flatten traces') →
        descendants order (List.flatten traces') = counted.length) ∧
      ∀ order invocationId stack,
        (ensureStitched stack (descendants order traces.flatten) = .ok () ↔
          ∃ span, Stitched traces.flatten span) ∧
        ((∃ summary, analyze order invocationId stack traces = .ok summary) ↔
          ensureEvidence invocationId traces.flatten = .ok () ∧
            ∃ span, Stitched traces.flatten span) := by
  obtain ⟨counted, hnodup, hcounted, -⟩ := descendants_eq hids ⟨id, fun _ => .refl _⟩
  have hsame : ∀ order traces', traces.flatten.Perm (List.flatten traces') →
      descendants order (List.flatten traces') = counted.length := by
    intro order traces' hperm
    obtain ⟨other, hnodup', hother, hlength⟩ :=
      descendants_eq ((hperm.map DecodedSpan.spanId).nodup_iff.mp hids) order
    have hmem : ∀ span, span ∈ other ↔ span ∈ counted := by
      intro span
      rw [hother, hcounted, stitched_perm hperm]
    rw [hlength, ((List.perm_ext_iff_of_nodup hnodup' hnodup).mpr hmem).length_eq]
  have hcheck : ∀ order stack,
      ensureStitched stack (descendants order traces.flatten) = .ok () ↔
        ∃ span, Stitched traces.flatten span := by
    intro order stack
    rw [hsame order traces (.refl _)]
    unfold ensureStitched
    rw [ensure_ok, decide_eq_true_eq, List.length_pos_iff_exists_mem]
    simp only [hcounted]
  refine ⟨counted, hnodup, hcounted, hsame, ?_⟩
  intro order invocationId stack
  refine ⟨hcheck order stack, ?_⟩
  rw [← hcheck order stack]
  unfold analyze
  simp only
  cases ensureEvidence invocationId traces.flatten with
  | error message => simp [bind, Except.bind]
  | ok _ =>
    cases ensureStitched stack (descendants order traces.flatten) with
    | error message => simp [bind, Except.bind]
    | ok _ => simp [bind, Except.bind, pure, Except.pure]

def appSpan : DecodedSpan :=
  ⟨"a".toList, some "t".toList, "http.client".toList, "UNSET".toList, [], []⟩

/-- A test whose parent is its own child. -/
def testSpan : DecodedSpan :=
  ⟨"t".toList, some "a".toList, "test.case".toList, "ERROR".toList,
    [("test.case.name", .text "pays".toList)], []⟩

theorem stitching_check_cyclic : ensureStitched "rust"
    (descendants ⟨id, fun _ => .refl _⟩ [[appSpan], [testSpan]].flatten) = .ok () := by
  have hids : ([[appSpan], [testSpan]].flatten.map DecodedSpan.spanId).Nodup := by decide
  have hlink : IsParent [[appSpan], [testSpan]].flatten testSpan appSpan :=
    ⟨List.mem_cons_of_mem _ List.mem_cons_self, List.mem_cons_self, rfl⟩
  obtain ⟨_, -, -, -, hcheck⟩ := stitching_check hids
  exact (hcheck ⟨id, fun _ => .refl _⟩ [] "rust").1.mpr
    ⟨appSpan, List.mem_cons_self, rfl, testSpan, rfl, .single hlink⟩

end CommercePlayground.Cli.Stitching
