/-
CommercePlayground.Cli.TopologyTheorems — the parents of a trace form a tree.

Where the index has every span at its position, a parent chain is a path of positions,
and following it succeeds exactly when it ends at a span without a parent (`climb_ok`): it
cannot meet a span twice, since the path from a span is the only one. Together with one
root for each trace this makes the trace a tree (`validateParentTopology_ok`).
-/
import CommercePlayground.Cli.TraceGraph
import Mathlib.Data.List.Dedup
import Mathlib.Data.List.Perm.Subperm

namespace CommercePlayground.Cli.TraceGraph

open Lib

/-! ## The index -/

/-- Every span is in the index, at its position, and nothing else is. -/
structure Indexed (nodes : List SpanNode) (index : SpanIndex) : Prop where
  distinct : (nodes.map SpanNode.key).Nodup
  lookup : ∀ key i, index.lookup key = some i ↔ ∃ node, nodes[i]? = some node ∧ node.key = key

theorem lookup_iff_mem {α β : Type} [BEq α] [LawfulBEq α] {entries : List (α × β)}
    (h : (entries.map Prod.fst).Nodup) (a : α) (b : β) :
    entries.lookup a = some b ↔ (a, b) ∈ entries := by
  induction entries with
  | nil => simp
  | cons entry entries ih =>
    obtain ⟨hnew, hrest⟩ := List.nodup_cons.mp h
    rw [List.lookup_cons, List.mem_cons]
    by_cases ha : a = entry.1
    · subst ha
      have hnot : (entry.1, b) ∉ entries := fun hm => hnew (List.mem_map.mpr ⟨_, hm, rfl⟩)
      simp only [beq_self_eq_true, hnot, or_false, Option.some.injEq]
      exact ⟨fun hb => by rw [← hb], fun hb => congrArg Prod.snd hb.symm⟩
    · have hne : (a == entry.1) = false := beq_false_of_ne ha
      have hnot : (a, b) ≠ entry := fun heq => ha (congrArg Prod.fst heq)
      simp only [hne, ih hrest, hnot, false_or]

/-- What the loop has added for some spans. -/
def entriesFrom (position : Nat) (nodes : List SpanNode) : SpanIndex :=
  (nodes.zipIdx position).map fun entry => (entry.1.key, entry.2)

theorem indexFrom_ok {position : Nat} {index index' : SpanIndex} {nodes : List SpanNode} :
    indexFrom position index nodes = .ok index' ↔
      (∀ node ∈ nodes, index.lookup node.key = none) ∧ (nodes.map SpanNode.key).Nodup ∧
        index' = (entriesFrom position nodes).reverse ++ index := by
  induction nodes generalizing position index with
  | nil => simp [indexFrom, entriesFrom, eq_comm]
  | cons node rest ih =>
    have hlookup : ∀ key, List.lookup key ((node.key, position) :: index) = none ↔
        key ≠ node.key ∧ index.lookup key = none := by
      intro key
      rw [List.lookup_cons]
      by_cases hkey : key = node.key
      · simp [hkey]
      · have hne : (key == node.key) = false := beq_false_of_ne hkey
        simp only [hne, ne_eq, hkey, not_false_eq_true, true_and]
    have hentries : (entriesFrom position (node :: rest)).reverse ++ index =
        (entriesFrom (position + 1) rest).reverse ++ (node.key, position) :: index := by
      simp [entriesFrom]
    unfold indexFrom
    rw [ensure_bind_ok, ih, hentries]
    simp only [hlookup, List.map_cons, List.nodup_cons, List.forall_mem_cons, Option.isNone_iff_eq_none,
      List.mem_map]
    constructor
    · rintro ⟨hfirst, hrest, hnodup, rfl⟩
      refine ⟨⟨hfirst, fun n hn => (hrest n hn).2⟩, ⟨?_, hnodup⟩, rfl⟩
      rintro ⟨n, hn, hkey⟩
      exact (hrest n hn).1 hkey
    · rintro ⟨⟨hfirst, hrest⟩, ⟨hnew, hnodup⟩, rfl⟩
      exact ⟨hfirst, fun n hn => ⟨fun hkey => hnew ⟨n, hn, hkey⟩, hrest n hn⟩, hnodup, rfl⟩

theorem indexSpans_ok {nodes : List SpanNode} {index : SpanIndex} :
    indexSpans nodes = .ok index ↔
      (nodes.map SpanNode.key).Nodup ∧ index = (entriesFrom 0 nodes).reverse := by
  unfold indexSpans
  rw [indexFrom_ok, List.append_nil]
  simp

theorem indexed_of_distinct {nodes : List SpanNode} (h : (nodes.map SpanNode.key).Nodup) :
    Indexed nodes (entriesFrom 0 nodes).reverse where
  distinct := h
  lookup := by
    intro key i
    have hkeys : ((entriesFrom 0 nodes).reverse.map Prod.fst).Nodup := by
      rw [List.map_reverse, List.nodup_reverse]
      have : (entriesFrom 0 nodes).map Prod.fst = nodes.map SpanNode.key := by
        unfold entriesFrom
        rw [List.map_map]
        show (nodes.zipIdx 0).map (SpanNode.key ∘ Prod.fst) = _
        rw [← List.map_map, List.zipIdx_map_fst]
      rw [this]
      exact h
    rw [lookup_iff_mem hkeys, List.mem_reverse]
    simp only [entriesFrom, List.mem_map, Prod.mk.injEq, Prod.exists]
    constructor
    · rintro ⟨node, position, hmem, hkey, rfl⟩
      exact ⟨node, by simpa [List.mem_zipIdx_iff_getElem?] using hmem, hkey⟩
    · rintro ⟨node, hnode, hkey⟩
      exact ⟨node, i, by simpa [List.mem_zipIdx_iff_getElem?] using hnode, hkey, rfl⟩

/-- A span has one position. -/
theorem Indexed.position_unique {nodes : List SpanNode} {index : SpanIndex}
    (h : Indexed nodes index) {i j : Nat} {a b : SpanNode} (hi : nodes[i]? = some a)
    (hj : nodes[j]? = some b) (hkey : a.key = b.key) : i = j := by
  have hlookup := (h.lookup a.key i).mpr ⟨a, hi, rfl⟩
  rw [(h.lookup a.key j).mpr ⟨b, hj, hkey.symm⟩] at hlookup
  exact (Option.some.inj hlookup).symm

/-! ## Parent chains -/

/-- The step from the position of a span to that of its parent. -/
def Up (nodes : List SpanNode) (i j : Nat) : Prop :=
  ∃ child parent, nodes[i]? = some child ∧ nodes[j]? = some parent ∧
    parent.traceId = child.traceId ∧ child.parentSpanId = some parent.spanId

/-- The chain from a position ends at a span without a parent. -/
inductive Rises (nodes : List SpanNode) : Nat → Prop
  | root {i : Nat} {node : SpanNode} : nodes[i]? = some node → node.parentSpanId = none →
      Rises nodes i
  | up {i j : Nat} : Up nodes i j → Rises nodes j → Rises nodes i

variable {nodes : List SpanNode} {index : SpanIndex}

/-- Steps are what the index says. -/
theorem Indexed.up_iff (h : Indexed nodes index) {i j : Nat} {node : SpanNode} {parent : Text}
    (hnode : nodes[i]? = some node) (hparent : node.parentSpanId = some parent) :
    Up nodes i j ↔ index.lookup (node.traceId, parent) = some j := by
  rw [h.lookup]
  constructor
  · rintro ⟨child, above, hi, hj, htrace, hlink⟩
    rw [hnode] at hi
    cases hi
    rw [hparent] at hlink
    cases hlink
    exact ⟨above, hj, Prod.ext htrace rfl⟩
  · rintro ⟨above, hj, hkey⟩
    obtain ⟨htrace, hspan⟩ := Prod.mk.inj hkey
    exact ⟨node, above, hnode, hj, htrace, by rw [hparent, ← hspan]⟩

theorem not_up_of_root {i j : Nat} {node : SpanNode} (hnode : nodes[i]? = some node)
    (hroot : node.parentSpanId = none) : ¬ Up nodes i j := by
  rintro ⟨child, above, hi, -, -, hlink⟩
  rw [hnode] at hi
  cases hi
  rw [hroot] at hlink
  cases hlink

theorem Indexed.up_unique (h : Indexed nodes index) {i j k : Nat} (hj : Up nodes i j)
    (hk : Up nodes i k) : j = k := by
  obtain ⟨child, above, hi, hjNode, htrace, hlink⟩ := hj
  obtain ⟨child', above', hi', hkNode, htrace', hlink'⟩ := hk
  rw [hi] at hi'
  cases hi'
  rw [hlink] at hlink'
  exact h.position_unique hjNode hkNode
    (Prod.ext (htrace.trans htrace'.symm) (Option.some.inj hlink'))

/-- A chain that ends meets no position twice: the path from a position is the only one. -/
theorem Rises.acyclic (hindexed : Indexed nodes index) {i : Nat} (h : Rises nodes i) :
    ¬ Relation.TransGen (Up nodes) i i := by
  induction h with
  | root hnode hroot =>
    intro hcycle
    obtain ⟨j, hup, -⟩ := Relation.TransGen.head'_iff.mp hcycle
    exact not_up_of_root hnode hroot hup
  | up hup _ ih =>
    intro hcycle
    obtain ⟨k, hup', hpath⟩ := Relation.TransGen.head'_iff.mp hcycle
    rw [← hindexed.up_unique hup hup'] at hpath
    exact ih (.tail' hpath hup)

theorem climb_root {seen : List Nat} {current : Nat} {node : SpanNode} (hseen : current ∉ seen)
    (hnode : nodes[current]? = some node) (hroot : node.parentSpanId = none) :
    climb nodes index seen current = .ok () := by
  unfold climb
  rw [if_neg hseen]
  split
  · simp_all
  · rename_i found hfound
    rw [hnode] at hfound
    cases hfound
    rw [hroot]

theorem climb_lost {seen : List Nat} {current : Nat} {node : SpanNode} {parent : Text}
    (hseen : current ∉ seen) (hnode : nodes[current]? = some node)
    (hparent : node.parentSpanId = some parent)
    (hlookup : index.lookup (node.traceId, parent) = none) :
    climb nodes index seen current = .error "Parallax parentSpanId lookup failed" := by
  unfold climb
  rw [if_neg hseen]
  split
  · simp_all
  · rename_i found hfound
    rw [hnode] at hfound
    cases hfound
    simp only [hparent, hlookup]

theorem climb_next {seen : List Nat} {current next : Nat} {node : SpanNode} {parent : Text}
    (hseen : current ∉ seen) (hnode : nodes[current]? = some node)
    (hparent : node.parentSpanId = some parent)
    (hlookup : index.lookup (node.traceId, parent) = some next) :
    climb nodes index seen current = climb nodes index (current :: seen) next := by
  rw [climb, if_neg hseen]
  split
  · simp_all
  · rename_i found hfound
    rw [hnode] at hfound
    cases hfound
    simp only [hparent, hlookup]

/-- Following the parents succeeds exactly when it comes to an end before it comes to a
position that was seen. -/
theorem climb_ok (hindexed : Indexed nodes index) (seen : List Nat) (current : Nat) :
    climb nodes index seen current = .ok () ↔
      Rises nodes current ∧ ∀ x ∈ seen, ¬ Relation.ReflTransGen (Up nodes) current x := by
  induction seen, current using climb.induct nodes index with
  | case1 seen current hseen =>
    unfold climb
    rw [if_pos hseen]
    exact ⟨fun h => (by cases h), fun h => absurd .refl (h.2 current hseen)⟩
  | case2 seen current hseen hnone =>
    have hout : ¬ Rises nodes current := by
      rintro (⟨hnode, -⟩ | ⟨⟨_, _, hnode, -⟩, -⟩)
      · rw [hnone] at hnode
        cases hnode
      · rw [hnone] at hnode
        cases hnode
    unfold climb
    rw [if_neg hseen]
    split
    · exact ⟨fun h => (by cases h), fun h => absurd h.1 hout⟩
    · simp_all
  | case3 seen current hseen node hnode hroot =>
    rw [climb_root hseen hnode hroot]
    refine ⟨fun _ => ⟨.root hnode hroot, fun x hx hpath => ?_⟩, fun _ => rfl⟩
    rcases Relation.ReflTransGen.cases_head hpath with rfl | ⟨j, hup, -⟩
    · exact hseen hx
    · exact not_up_of_root hnode hroot hup
  | case4 seen current hseen node hnode parent hparent hlookup =>
    rw [climb_lost hseen hnode hparent hlookup]
    refine ⟨fun h => (by cases h), fun h => ?_⟩
    cases h.1 with
    | root hnode' hroot =>
      rw [hnode] at hnode'
      cases hnode'
      rw [hparent] at hroot
      cases hroot
    | up hup _ =>
      rw [hindexed.up_iff hnode hparent, hlookup] at hup
      cases hup
  | case5 seen current hseen node hnode parent hparent next hlookup ih =>
    have hup := (hindexed.up_iff hnode hparent).mpr hlookup
    rw [climb_next hseen hnode hparent hlookup, ih]
    constructor
    · rintro ⟨hrises, hfresh⟩
      refine ⟨.up hup hrises, fun x hx hpath => ?_⟩
      rcases Relation.ReflTransGen.cases_head hpath with rfl | ⟨j, hup', hrest⟩
      · exact hseen hx
      · rw [hindexed.up_unique hup' hup] at hrest
        exact hfresh x (List.mem_cons_of_mem _ hx) hrest
    · rintro ⟨hrises, hfresh⟩
      have hnext : Rises nodes next := by
        cases hrises with
        | root hnode' hroot => exact absurd hup (not_up_of_root hnode' hroot)
        | up hup' hrest => rwa [hindexed.up_unique hup hup']
      refine ⟨hnext, fun x hx hpath => ?_⟩
      rcases List.mem_cons.mp hx with rfl | hx
      · exact (Rises.up hup hnext).acyclic hindexed (.head' hup hpath)
      · exact hfresh x hx (.head hup hpath)

/-- The walks from all positions succeed exactly when every chain comes to an end. -/
theorem climbs_ok (hindexed : Indexed nodes index) :
    (List.range nodes.length).forM (climb nodes index []) = .ok () ↔
      ∀ i < nodes.length, Rises nodes i := by
  have hall : ∀ positions : List Nat, positions.forM (climb nodes index []) = .ok () ↔
      ∀ i ∈ positions, Rises nodes i := by
    intro positions
    induction positions with
    | nil => exact ⟨fun _ i hi => absurd hi List.not_mem_nil, fun _ => rfl⟩
    | cons i rest ih =>
      show (climb nodes index [] i >>= fun _ => rest.forM (climb nodes index [])) = .ok () ↔ _
      rw [bind_ok_iff, List.forall_mem_cons, ← ih]
      have hfirst : climb nodes index [] i = .ok () ↔ Rises nodes i := by
        rw [climb_ok hindexed]
        exact ⟨fun h => h.1, fun h => ⟨h, fun x hx => absurd hx List.not_mem_nil⟩⟩
      rw [← hfirst]
      exact ⟨fun ⟨_, h⟩ => h, fun h => ⟨(), h⟩⟩
  rw [hall]
  simp only [List.mem_range]

/-! ## Roots -/

/-- The spans without a parent: the trace and the position of each. -/
def rootPairs (position : Nat) (nodes : List SpanNode) : List (Text × Nat) :=
  ((nodes.zipIdx position).filter fun entry => decide (entry.1.parentSpanId = none)).map
    fun entry => (entry.1.traceId, entry.2)

theorem mem_rootPairs {traceId : Text} {i : Nat} : (traceId, i) ∈ rootPairs 0 nodes ↔
    ∃ node, nodes[i]? = some node ∧ node.parentSpanId = none ∧ node.traceId = traceId := by
  simp only [rootPairs, List.mem_map, List.mem_filter, Prod.exists, List.mem_zipIdx_iff_getElem?,
    decide_eq_true_eq, Prod.mk.injEq]
  constructor
  · rintro ⟨node, j, ⟨hnode, hroot⟩, htrace, rfl⟩
    exact ⟨node, hnode, hroot, htrace⟩
  · rintro ⟨node, hnode, hroot, htrace⟩
    exact ⟨node, i, ⟨hnode, hroot⟩, htrace, rfl⟩

theorem nodup_rootPositions (nodes : List SpanNode) :
    ((rootPairs 0 nodes).map Prod.snd).Nodup := by
  have hsub : (((nodes.zipIdx 0).filter fun entry => decide (entry.1.parentSpanId = none)).map
      Prod.snd).Sublist ((nodes.zipIdx 0).map Prod.snd) := List.filter_sublist.map _
  have hall : ((nodes.zipIdx 0).map Prod.snd).Nodup := by
    rw [List.zipIdx_map_snd]
    exact List.nodup_range'
  unfold rootPairs
  rw [List.map_map]
  exact hall.sublist hsub

/-- A known parent for every span that names one. -/
def ParentsKnown (index : SpanIndex) (nodes : List SpanNode) : Prop :=
  ∀ node ∈ nodes, ∀ parent, node.parentSpanId = some parent →
    (index.lookup (node.traceId, parent)).isSome = true

theorem parentsKnown_cons {node : SpanNode} {rest : List SpanNode} :
    ParentsKnown index (node :: rest) ↔
      (∀ parent, node.parentSpanId = some parent →
        (index.lookup (node.traceId, parent)).isSome = true) ∧ ParentsKnown index rest :=
  List.forall_mem_cons

theorem rootsFrom_ok {position : Nat} {acc result : List (Text × List Nat)} :
    rootsFrom index position acc nodes = .ok result ↔ ParentsKnown index nodes ∧
      result = (rootPairs position nodes).foldl (fun acc root => pushRoot root.1 root.2 acc) acc := by
  induction nodes generalizing position acc with
  | nil =>
    simp only [rootsFrom, rootPairs, Except.ok.injEq]
    exact ⟨fun h => ⟨fun n hn => absurd hn List.not_mem_nil, h.symm⟩, fun h => h.2.symm⟩
  | cons node rest ih =>
    have hpairs : rootPairs position (node :: rest) =
        (if node.parentSpanId = none then [(node.traceId, position)] else []) ++
          rootPairs (position + 1) rest := by
      unfold rootPairs
      rw [List.zipIdx_cons, List.filter_cons]
      split <;> simp_all
    unfold rootsFrom
    rw [parentsKnown_cons, hpairs]
    cases hparent : node.parentSpanId with
    | none =>
      simp only [ih, reduceCtorEq, false_implies, implies_true, true_and, if_true]
      rfl
    | some parent =>
      simp only [ensure_bind_ok, ih, Option.some.injEq, forall_eq', reduceCtorEq, if_false,
        List.nil_append, and_assoc]

/-! ## Grouping by trace -/

theorem lookup_pushRoot (traceId : Text) (i : Nat) (acc : List (Text × List Nat)) (t : Text) :
    (pushRoot traceId i acc).lookup t =
      if t = traceId then some ((acc.lookup traceId).getD [] ++ [i]) else acc.lookup t := by
  induction acc with
  | nil =>
    by_cases ht : t = traceId
    · simp [pushRoot, ht]
    · simp [pushRoot, ht, List.lookup_cons, beq_false_of_ne ht]
  | cons entry acc ih =>
    obtain ⟨key, positions⟩ := entry
    unfold pushRoot
    by_cases hkey : key = traceId
    · subst hkey
      rw [if_pos rfl]
      by_cases ht : t = key
      · simp [ht]
      · simp only [List.lookup_cons, beq_false_of_ne ht, if_neg ht]
    · rw [if_neg hkey]
      by_cases ht : t = key
      · simp [ht, hkey]
      · simp only [List.lookup_cons, beq_false_of_ne ht, beq_false_of_ne (Ne.symm hkey)]
        exact ih

theorem mem_keys_pushRoot (traceId : Text) (i : Nat) (acc : List (Text × List Nat)) (t : Text) :
    t ∈ (pushRoot traceId i acc).map Prod.fst ↔ t = traceId ∨ t ∈ acc.map Prod.fst := by
  induction acc with
  | nil => simp [pushRoot]
  | cons entry acc ih =>
    unfold pushRoot
    split
    · rename_i hentry
      simp only [List.map_cons, List.mem_cons, hentry]
      tauto
    · simp only [List.map_cons, List.mem_cons, ih]
      tauto

theorem nodup_keys_pushRoot (traceId : Text) (i : Nat) {acc : List (Text × List Nat)}
    (h : (acc.map Prod.fst).Nodup) : ((pushRoot traceId i acc).map Prod.fst).Nodup := by
  induction acc with
  | nil => simp [pushRoot]
  | cons entry acc ih =>
    obtain ⟨hnew, hrest⟩ := List.nodup_cons.mp h
    unfold pushRoot
    split
    · exact h
    · rename_i hentry
      refine List.nodup_cons.mpr ⟨fun hm => ?_, ih hrest⟩
      exact ((mem_keys_pushRoot _ _ _ _).mp hm).elim hentry hnew

theorem flatMap_pushRoot (traceId : Text) (i : Nat) (acc : List (Text × List Nat)) :
    ((pushRoot traceId i acc).flatMap Prod.snd).Perm (i :: acc.flatMap Prod.snd) := by
  induction acc with
  | nil => exact .refl _
  | cons entry acc ih =>
    unfold pushRoot
    split
    · simp only [List.flatMap_cons, List.append_assoc, List.singleton_append]
      exact List.perm_middle
    · simp only [List.flatMap_cons]
      exact (ih.append_left entry.2).trans List.perm_middle

/-- The positions of one trace. -/
def positionsOf (traceId : Text) (pairs : List (Text × Nat)) : List Nat :=
  (pairs.filter fun pair => decide (pair.1 = traceId)).map Prod.snd

theorem positionsOf_cons (traceId : Text) (pair : Text × Nat) (pairs : List (Text × Nat)) :
    positionsOf traceId (pair :: pairs) =
      if pair.1 = traceId then pair.2 :: positionsOf traceId pairs
      else positionsOf traceId pairs := by
  unfold positionsOf
  rw [List.filter_cons]
  by_cases h : pair.1 = traceId <;> simp [h]

/-- What the map by trace is after some roots. -/
structure Grouped (pairs : List (Text × Nat)) (acc result : List (Text × List Nat)) : Prop where
  nodup : (acc.map Prod.fst).Nodup → (result.map Prod.fst).Nodup
  keys : ∀ t, t ∈ result.map Prod.fst ↔ t ∈ pairs.map Prod.fst ∨ t ∈ acc.map Prod.fst
  lookup : ∀ t ∈ result.map Prod.fst,
    result.lookup t = some ((acc.lookup t).getD [] ++ positionsOf t pairs)
  positions : (result.flatMap Prod.snd).Perm (pairs.map Prod.snd ++ acc.flatMap Prod.snd)

theorem grouped (pairs : List (Text × Nat)) (acc : List (Text × List Nat)) :
    Grouped pairs acc (pairs.foldl (fun acc root => pushRoot root.1 root.2 acc) acc) := by
  induction pairs generalizing acc with
  | nil =>
    refine ⟨fun h => h, fun t => by simp, fun t ht => ?_, .refl _⟩
    simp only [List.foldl_nil, positionsOf, List.filter_nil, List.map_nil, List.append_nil] at ht ⊢
    cases hlookup : acc.lookup t with
    | some found => rfl
    | none =>
      obtain ⟨entry, hentry, rfl⟩ := List.mem_map.mp ht
      simp only [List.lookup_eq_none_iff] at hlookup
      exact absurd (hlookup entry hentry) (by simp)
  | cons pair pairs ih =>
    have hrest := ih (pushRoot pair.1 pair.2 acc)
    refine ⟨fun h => hrest.nodup (nodup_keys_pushRoot _ _ h), fun t => ?_, fun t ht => ?_, ?_⟩
    · rw [List.foldl_cons, hrest.keys, mem_keys_pushRoot, List.map_cons, List.mem_cons]
      tauto
    · rw [List.foldl_cons, hrest.lookup t ht, lookup_pushRoot, positionsOf_cons]
      by_cases hpair : t = pair.1
      · rw [if_pos hpair, if_pos hpair.symm, hpair]
        simp
      · rw [if_neg hpair, if_neg (fun h => hpair h.symm)]
    · refine hrest.positions.trans ?_
      rw [List.map_cons, List.cons_append]
      exact ((flatMap_pushRoot _ _ _).append_left _).trans List.perm_middle

/-! ## One root for each trace -/

theorem rootsByTrace_ok {pairs : List (Text × Nat)} {result : List (Text × List Nat)}
    (hgrouped : Grouped pairs [] result) {traces : List Text}
    (hpairs : ∀ pair ∈ pairs, pair.1 ∈ traces) :
    (result.length = traces.dedup.length ∧ ∀ entry ∈ result, entry.2.length = 1) ↔
      ∀ traceId ∈ traces, (positionsOf traceId pairs).length = 1 := by
  have hnodup := hgrouped.nodup List.nodup_nil
  have hkeys : ∀ t, t ∈ result.map Prod.fst ↔ t ∈ pairs.map Prod.fst := by
    intro t
    rw [hgrouped.keys]
    simp
  have hentry : ∀ entry ∈ result, entry.2 = positionsOf entry.1 pairs := by
    intro entry hmem
    have hlookup := hgrouped.lookup entry.1 (List.mem_map_of_mem hmem)
    rw [(lookup_iff_mem hnodup entry.1 entry.2).mpr hmem] at hlookup
    simpa using hlookup
  have hsub : result.map Prod.fst ⊆ traces.dedup := by
    intro t ht
    obtain ⟨pair, hpair, rfl⟩ := List.mem_map.mp ((hkeys t).mp ht)
    exact List.mem_dedup.mpr (hpairs pair hpair)
  constructor
  · rintro ⟨hlength, hone⟩ t ht
    have hperm := (List.subperm_of_subset hnodup hsub).perm_of_length_le
      (by rw [List.length_map, hlength])
    obtain ⟨entry, hmem, rfl⟩ := List.mem_map.mp (hperm.mem_iff.mpr (List.mem_dedup.mpr ht))
    rw [← hentry entry hmem]
    exact hone entry hmem
  · intro hone
    refine ⟨?_, fun entry hmem => ?_⟩
    · have hall : traces.dedup ⊆ result.map Prod.fst := by
        intro t ht
        obtain ⟨i, hi⟩ := List.length_eq_one_iff.mp (hone t (List.mem_dedup.mp ht))
        have hmem : i ∈ positionsOf t pairs := by rw [hi]; exact List.mem_cons_self
        obtain ⟨pair, hpair, -⟩ := List.mem_map.mp hmem
        obtain ⟨hpair, htrace⟩ := List.mem_filter.mp hpair
        exact (hkeys t).mpr (List.mem_map.mpr ⟨pair, hpair, of_decide_eq_true htrace⟩)
      have hle := (List.subperm_of_subset hnodup hsub).length_le
      have hge := (List.subperm_of_subset traces.nodup_dedup hall).length_le
      rw [List.length_map] at hle hge
      omega
    · rw [hentry entry hmem]
      exact hone entry.1 (List.mem_dedup.mp (hsub (List.mem_map_of_mem hmem)))

theorem mem_positionsOf {traceId : Text} {i : Nat} :
    i ∈ positionsOf traceId (rootPairs 0 nodes) ↔
      ∃ node, nodes[i]? = some node ∧ IsRoot nodes traceId node := by
  unfold positionsOf
  simp only [List.mem_map, List.mem_filter, decide_eq_true_eq]
  constructor
  · rintro ⟨⟨t, j⟩, ⟨hmem, rfl⟩, rfl⟩
    obtain ⟨node, hnode, hroot, htrace⟩ := mem_rootPairs.mp hmem
    exact ⟨node, hnode, List.mem_of_getElem? hnode, htrace, hroot⟩
  · rintro ⟨node, hnode, -, htrace, hroot⟩
    exact ⟨(traceId, i), ⟨mem_rootPairs.mpr ⟨node, hnode, hroot, htrace⟩, rfl⟩, rfl⟩

/-- One position is one root. -/
theorem one_root_iff (hindexed : Indexed nodes index) (traceId : Text) :
    (positionsOf traceId (rootPairs 0 nodes)).length = 1 ↔
      ∃ root, ∀ other, IsRoot nodes traceId other ↔ other = root := by
  have hnodup : (positionsOf traceId (rootPairs 0 nodes)).Nodup :=
    (nodup_rootPositions nodes).sublist (List.filter_sublist.map _)
  constructor
  · intro hone
    obtain ⟨i, hi⟩ := List.length_eq_one_iff.mp hone
    have hmem : i ∈ positionsOf traceId (rootPairs 0 nodes) := by rw [hi]; exact List.mem_cons_self
    obtain ⟨root, hroot, hisRoot⟩ := mem_positionsOf.mp hmem
    refine ⟨root, fun other => ⟨fun h => ?_, fun h => h ▸ hisRoot⟩⟩
    obtain ⟨j, hj⟩ := List.getElem?_of_mem h.1
    have hjmem := mem_positionsOf.mpr ⟨other, hj, h⟩
    rw [hi, List.mem_singleton] at hjmem
    rw [hjmem, hroot] at hj
    exact (Option.some.inj hj).symm
  · rintro ⟨root, hroot⟩
    obtain ⟨i, hi⟩ := List.getElem?_of_mem ((hroot root).mpr rfl).1
    refine List.length_eq_one_iff.mpr ⟨i, List.perm_singleton.mp ?_⟩
    refine (List.perm_ext_iff_of_nodup hnodup (List.nodup_singleton i)).mpr fun j => ?_
    rw [mem_positionsOf, List.mem_singleton]
    constructor
    · rintro ⟨other, hj, hother⟩
      exact hindexed.position_unique hj hi (by rw [(hroot other).mp hother])
    · rintro rfl
      exact ⟨root, hi, (hroot root).mpr rfl⟩

/-! ## Trees -/

/-- Each trace is the tree of its only root. -/
def Trees (nodes : List SpanNode) : Prop :=
  ∀ traceId ∈ nodes.map SpanNode.traceId, ∃ root,
    (∀ other, IsRoot nodes traceId other ↔ other = root) ∧
    ∀ node ∈ nodes, node.traceId = traceId → Relation.ReflTransGen (IsParent nodes) root node

theorem up_of_isParent {i j : Nat} {child parent : SpanNode} (hi : nodes[i]? = some child)
    (hj : nodes[j]? = some parent) (h : IsParent nodes parent child) : Up nodes i j :=
  ⟨child, parent, hi, hj, h.2.2.1, h.2.2.2⟩

/-- A chain that ends is the way from a root of the trace. -/
theorem Rises.exists_root {i : Nat} (h : Rises nodes i) : ∃ node root, nodes[i]? = some node ∧
    IsRoot nodes node.traceId root ∧ Relation.ReflTransGen (IsParent nodes) root node := by
  induction h with
  | @root i node hnode hroot =>
    exact ⟨node, node, hnode, ⟨List.mem_of_getElem? hnode, rfl, hroot⟩, .refl⟩
  | @up i j hup _ ih =>
    obtain ⟨child, parent, hi, hj, htrace, hlink⟩ := hup
    obtain ⟨above, root, hj', hroot, hpath⟩ := ih
    rw [hj] at hj'
    cases hj'
    refine ⟨child, root, hi, htrace ▸ hroot, hpath.tail ?_⟩
    exact ⟨List.mem_of_getElem? hj, List.mem_of_getElem? hi, htrace, hlink⟩

theorem rises_of_path {root node : SpanNode} {i : Nat} (hroot : root.parentSpanId = none)
    (hpath : Relation.ReflTransGen (IsParent nodes) root node) (hi : nodes[i]? = some node) :
    Rises nodes i := by
  induction hpath generalizing i with
  | refl => exact .root hi hroot
  | tail _ hlink ih =>
    obtain ⟨j, hj⟩ := List.getElem?_of_mem hlink.1
    exact .up (up_of_isParent hi hj hlink) (ih hj)

theorem trees_iff (hindexed : Indexed nodes index) : Trees nodes ↔
    (∀ traceId ∈ nodes.map SpanNode.traceId,
      (positionsOf traceId (rootPairs 0 nodes)).length = 1) ∧
    ∀ i < nodes.length, Rises nodes i := by
  constructor
  · intro htrees
    refine ⟨fun traceId htrace => ?_, fun i hi => ?_⟩
    · obtain ⟨root, hroot, -⟩ := htrees traceId htrace
      exact (one_root_iff hindexed traceId).mpr ⟨root, hroot⟩
    · have hnode := List.getElem?_eq_getElem hi
      have hmem := List.mem_of_getElem? hnode
      obtain ⟨root, hroot, hall⟩ := htrees nodes[i].traceId (List.mem_map_of_mem hmem)
      exact rises_of_path ((hroot root).mpr rfl).2.2 (hall _ hmem rfl) hnode
  · rintro ⟨hone, hrises⟩ traceId htrace
    obtain ⟨root, hroot⟩ := (one_root_iff hindexed traceId).mp (hone traceId htrace)
    refine ⟨root, hroot, fun node hnode hsame => ?_⟩
    obtain ⟨i, hi⟩ := List.getElem?_of_mem hnode
    obtain ⟨found, top, hfound, htop, hpath⟩ :=
      (hrises i (List.getElem?_eq_some_iff.mp hi).1).exists_root
    rw [hi] at hfound
    cases hfound
    rw [hsame] at htop
    rwa [(hroot top).mp htop] at hpath

/-- A chain that ends has no unknown parent. -/
theorem parentsKnown_of_rises (hindexed : Indexed nodes index)
    (h : ∀ i < nodes.length, Rises nodes i) : ParentsKnown index nodes := by
  intro node hnode parent hparent
  obtain ⟨i, hi⟩ := List.getElem?_of_mem hnode
  cases h i (List.getElem?_eq_some_iff.mp hi).1 with
  | root hi' hroot =>
    rw [hi] at hi'
    cases hi'
    rw [hparent] at hroot
    cases hroot
  | up hup _ => rw [(hindexed.up_iff hi hparent).mp hup]; rfl

/-- The roots by trace, as the first loop leaves them. -/
def rootsByTrace (nodes : List SpanNode) : List (Text × List Nat) :=
  (rootPairs 0 nodes).foldl (fun acc root => pushRoot root.1 root.2 acc) []

theorem validateParentTopology_ok (hindexed : Indexed nodes index) {roots : List Nat} :
    validateParentTopology nodes index = .ok roots ↔ ParentsKnown index nodes ∧
      ((rootsByTrace nodes).length = (nodes.map SpanNode.traceId).dedup.length ∧
        ∀ entry ∈ rootsByTrace nodes, entry.2.length = 1) ∧
      (∀ i < nodes.length, Rises nodes i) ∧
      roots = ((rootsByTrace nodes).mergeSort fun a b => decide (a.1 ≤ b.1)).flatMap Prod.snd := by
  unfold validateParentTopology
  rw [bind_ok_iff]
  simp only [rootsFrom_ok, ensure_bind_ok, decide_eq_true_eq, List.all_eq_true, ← climbs_ok hindexed,
    rootsByTrace]
  constructor
  · rintro ⟨_, ⟨hknown, rfl⟩, hcount, hone, h⟩
    obtain ⟨_, hclimb, hroots⟩ := bind_ok_iff.mp h
    exact ⟨hknown, ⟨hcount, hone⟩, hclimb, (Except.ok.inj hroots).symm⟩
  · rintro ⟨hknown, ⟨hcount, hone⟩, hclimb, rfl⟩
    exact ⟨_, ⟨hknown, rfl⟩, hcount, hone, bind_ok_iff.mpr ⟨(), hclimb, rfl⟩⟩

/-- The checks on the parents pass exactly when each trace is a tree. -/
theorem topology_iff (hindexed : Indexed nodes index) :
    (∃ roots, validateParentTopology nodes index = .ok roots) ↔ Trees nodes := by
  have hpairs : ∀ pair ∈ rootPairs 0 nodes, pair.1 ∈ nodes.map SpanNode.traceId := by
    rintro ⟨traceId, i⟩ hpair
    obtain ⟨node, hnode, -, rfl⟩ := mem_rootPairs.mp hpair
    exact List.mem_map_of_mem (List.mem_of_getElem? hnode)
  simp only [validateParentTopology_ok hindexed]
  rw [trees_iff hindexed, ← rootsByTrace_ok (grouped (rootPairs 0 nodes) []) hpairs]
  constructor
  · rintro ⟨roots, -, hone, hrises, -⟩
    exact ⟨hone, hrises⟩
  · rintro ⟨hone, hrises⟩
    exact ⟨_, parentsKnown_of_rises hindexed hrises, hone, hrises, rfl⟩

/-- What they return are the positions of the roots. -/
theorem roots_perm (hindexed : Indexed nodes index) {roots : List Nat}
    (h : validateParentTopology nodes index = .ok roots) :
    roots.Perm ((rootPairs 0 nodes).map Prod.snd) := by
  obtain ⟨-, -, -, rfl⟩ := (validateParentTopology_ok hindexed).mp h
  refine ((List.mergeSort_perm _ _).flatMap_right Prod.snd).trans ?_
  have hpositions := (grouped (rootPairs 0 nodes) []).positions
  rwa [List.flatMap_nil, List.append_nil] at hpositions

end CommercePlayground.Cli.TraceGraph
