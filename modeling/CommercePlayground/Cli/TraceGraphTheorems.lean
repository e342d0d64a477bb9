/-
CommercePlayground.Cli.TraceGraphTheorems — the verifier accepts the well-formed graphs.

Parents and links are edges between positions, and the search from the root of the anchor
counts what can be reached along them (`reachable_length`). Spans and positions correspond
(`paths_iff`), so the count is the number of spans exactly when the graph is connected.
With the checks before it that makes the verdict the well-formedness of the graph
(`verifyGraph_ok`), which says nothing about the order of spans or links (`Reordered`).
-/
import CommercePlayground.Cli.LinkTheorems

namespace CommercePlayground.Cli.TraceGraph

open Lib

variable {parse : Text → Option Json} {nodes : List SpanNode} {index : SpanIndex}

/-! ## Edges between positions -/

/-- The edge of a parent or a link, in either direction. -/
def Near (nodes : List SpanNode) (i j : Nat) : Prop :=
  Up nodes j i ∨ Up nodes i j ∨ Joins nodes i j ∨ Joins nodes j i

/-- Where the index has the parent of a span. -/
def ParentAt (index : SpanIndex) (node : SpanNode) (position : Nat) : Prop :=
  ∃ parent, node.parentSpanId = some parent ∧
    index.lookup (node.traceId, parent) = some position

theorem parentPushes_ok {child : Nat} {rest : List SpanNode} (hknown : ParentsKnown index rest) :
    ∃ pushes, parentPushes index child rest = .ok pushes ∧ ∀ i j, (i, j) ∈ pushes ↔
      (∃ node, (node, j) ∈ rest.zipIdx child ∧ ParentAt index node i) ∨
        ∃ node, (node, i) ∈ rest.zipIdx child ∧ ParentAt index node j := by
  induction rest generalizing child with
  | nil => exact ⟨[], rfl, fun i j => by simp⟩
  | cons node rest ih =>
    obtain ⟨hfirst, hrest⟩ := parentsKnown_cons.mp hknown
    obtain ⟨pushes, hpushes, hmem⟩ := ih hrest
    unfold parentPushes
    cases hparent : node.parentSpanId with
    | none =>
      refine ⟨pushes, hpushes, fun i j => ?_⟩
      have hnone : ∀ position, ¬ ParentAt index node position := by
        rintro position ⟨parent, hsome, -⟩
        rw [hparent] at hsome
        cases hsome
      rw [hmem]
      simp [hnone, or_and_right, exists_or]
    | some parent =>
      obtain ⟨position, hposition⟩ := Option.isSome_iff_exists.mp (hfirst parent hparent)
      refine ⟨(child, position) :: (position, child) :: pushes, ?_, fun i j => ?_⟩
      · exact bind_ok_iff.mpr ⟨position, context_ok.mpr hposition,
          bind_ok_iff.mpr ⟨pushes, hpushes, rfl⟩⟩
      · have hat : ∀ k, ParentAt index node k ↔ k = position := by
          intro k
          simp [ParentAt, hparent, hposition, eq_comm]
        rw [List.mem_cons, List.mem_cons, hmem]
        simp only [List.zipIdx_cons, List.mem_cons, Prod.mk.injEq, or_and_right, exists_or]
        simp only [and_assoc, exists_eq_left, hat]
        constructor
        · rintro (h | ⟨hi, hj⟩ | h | h)
          · exact .inr (.inl h)
          · exact .inl (.inl ⟨hj, hi⟩)
          · exact .inl (.inr h)
          · exact .inr (.inr h)
        · rintro ((⟨hj, hi⟩ | h) | h | h)
          · exact .inr (.inl ⟨hi, hj⟩)
          · exact .inr (.inr (.inl h))
          · exact .inl h
          · exact .inr (.inr (.inr h))

theorem mem_linkPushes {links : List SpanLink} {i j : Nat} :
    (i, j) ∈ linkPushes links ↔
      (i, j) ∈ links.map SpanLink.pair ∨ (j, i) ∈ links.map SpanLink.pair := by
  unfold linkPushes
  simp only [List.mem_flatMap, List.mem_map, List.mem_cons, List.not_mem_nil, or_false,
    SpanLink.pair, Prod.mk.injEq]
  constructor
  · rintro ⟨link, hlink, ⟨rfl, rfl⟩ | ⟨rfl, rfl⟩⟩
    · exact .inl ⟨link, hlink, rfl, rfl⟩
    · exact .inr ⟨link, hlink, rfl, rfl⟩
  · rintro (⟨link, hlink, rfl, rfl⟩ | ⟨link, hlink, rfl, rfl⟩)
    · exact ⟨link, hlink, .inl ⟨rfl, rfl⟩⟩
    · exact ⟨link, hlink, .inr ⟨rfl, rfl⟩⟩

/-- The pushes are the edges. -/
theorem pushes_ok {links : List SpanLink} (hindexed : Indexed nodes index)
    (hknown : ParentsKnown index nodes) (hlinks : Resolved parse nodes index links) :
    ∃ pushes, parentPushes index 0 nodes = .ok pushes ∧
      ∀ i j, (i, j) ∈ pushes ++ linkPushes links ↔ Near nodes i j := by
  obtain ⟨pushes, hpushes, hmem⟩ :
      ∃ pushes, parentPushes index 0 nodes = .ok pushes ∧ _ := parentPushes_ok hknown
  have hup : ∀ i j, (∃ node, (node, i) ∈ nodes.zipIdx 0 ∧ ParentAt index node j) ↔
      Up nodes i j := by
    intro i j
    simp only [List.mem_zipIdx_iff_getElem?]
    constructor
    · rintro ⟨node, hnode, parent, hparent, hlookup⟩
      exact (hindexed.up_iff hnode hparent).mpr hlookup
    · intro h
      obtain ⟨child, above, hchild, -, -, hparent⟩ := id h
      exact ⟨child, hchild, _, hparent, (hindexed.up_iff hchild hparent).mp h⟩
  refine ⟨pushes, hpushes, fun i j => ?_⟩
  rw [List.mem_append, hmem, mem_linkPushes, hup, hup, hlinks.mem_pairs hindexed,
    hlinks.mem_pairs hindexed, or_assoc]
  rfl

/-! ## What the search counts -/

theorem adjacency_next {pushes : List (Nat × Nat)} {i j : Nat} :
    j ∈ (adjacency pushes).next i ↔ (i, j) ∈ pushes := by
  show j ∈ (pushes.filter fun push => decide (push.1 = i)).map Prod.snd ↔ _
  simp only [List.mem_map, List.mem_filter, decide_eq_true_eq]
  constructor
  · rintro ⟨push, ⟨hpush, rfl⟩, rfl⟩
    exact hpush
  · intro h
    exact ⟨(i, j), ⟨h, rfl⟩, rfl⟩

theorem reach_iff {pushes : List (Nat × Nat)} (hpushes : ∀ i j, (i, j) ∈ pushes ↔ Near nodes i j)
    {root i : Nat} :
    (adjacency pushes).Reach [root] i ↔ Relation.ReflTransGen (Near nodes) root i := by
  constructor
  · intro h
    induction h with
    | root hroot =>
      rw [List.mem_singleton.mp hroot]
    | step _ hnext ih => exact ih.tail ((hpushes _ _).mp (adjacency_next.mp hnext))
  · intro h
    induction h with
    | refl => exact .root List.mem_cons_self
    | tail _ hnear ih => exact .step ih (adjacency_next.mpr ((hpushes _ _).mpr hnear))

theorem Near.lt {i j : Nat} (h : Near nodes i j) : i < nodes.length ∧ j < nodes.length := by
  rcases h with ⟨_, _, hj, hi, -⟩ | ⟨_, _, hi, hj, -⟩ | ⟨_, _, hi, hj, -⟩ | ⟨_, _, hj, hi, -⟩
  all_goals exact ⟨(List.getElem?_eq_some_iff.mp hi).1, (List.getElem?_eq_some_iff.mp hj).1⟩

/-- The search finds as many positions as there are exactly when it finds every one. -/
theorem reachable_length {pushes : List (Nat × Nat)}
    (hpushes : ∀ i j, (i, j) ∈ pushes ↔ Near nodes i j) {root : Nat} (hroot : root < nodes.length) :
    (reachable pushes [root]).length = nodes.length ↔
      ∀ i < nodes.length, Relation.ReflTransGen (Near nodes) root i := by
  obtain ⟨hnodup, hmem, -⟩ :=
    (adjacency pushes).run_spec .queue (fun (state : Unit) _ => state) [root] ()
  have hnodup : (reachable pushes [root]).Nodup := hnodup
  have hmem : ∀ i, i ∈ reachable pushes [root] ↔ Relation.ReflTransGen (Near nodes) root i :=
    fun i => (hmem i).trans (reach_iff hpushes)
  have hsub : reachable pushes [root] ⊆ List.range nodes.length := by
    intro i hi
    rcases Relation.ReflTransGen.cases_tail ((hmem i).mp hi) with rfl | ⟨_, -, hnear⟩
    · exact List.mem_range.mpr hroot
    · exact List.mem_range.mpr hnear.lt.2
  have hall : (reachable pushes [root]).length = nodes.length ↔
      (reachable pushes [root]).Perm (List.range nodes.length) := by
    constructor
    · intro hlength
      refine (List.subperm_of_subset hnodup hsub).perm_of_length_le ?_
      rw [hlength, List.length_range]
    · intro hperm
      rw [hperm.length_eq, List.length_range]
  rw [hall, List.perm_ext_iff_of_nodup hnodup List.nodup_range]
  simp only [hmem, List.mem_range]
  refine ⟨fun h i hi => (h i).mpr hi, fun h i => ⟨fun hpath => ?_, h i⟩⟩
  exact List.mem_range.mp (hsub ((hmem i).mpr hpath))

/-! ## Edges between spans -/

theorem near_iff {i j : Nat} {a b : SpanNode} (hi : nodes[i]? = some a)
    (hj : nodes[j]? = some b) : Near nodes i j ↔ Touches nodes a b := by
  have ha := List.mem_of_getElem? hi
  have hb := List.mem_of_getElem? hj
  simp [Near, Touches, Up, Joins, IsParent, IsLinked, hi, hj, ha, hb]

theorem Touches.mem {a b : SpanNode} (h : Touches nodes a b) : a ∈ nodes := by
  rcases h with h | h | h | h
  · exact h.1
  · exact h.2.1
  · exact h.1
  · exact h.2.1

/-- Paths of positions are paths of spans. -/
theorem paths_iff (hindexed : Indexed nodes index) {i j : Nat} {a b : SpanNode}
    (hi : nodes[i]? = some a) (hj : nodes[j]? = some b) :
    Relation.ReflTransGen (Near nodes) i j ↔ Relation.ReflTransGen (Touches nodes) a b := by
  constructor
  · intro h
    induction h generalizing b with
    | refl =>
      rw [hi] at hj
      cases hj
      exact .refl
    | tail _ hnear ih =>
      have hmid := List.getElem?_eq_getElem hnear.lt.1
      exact (ih hmid).tail ((near_iff hmid hj).mp hnear)
  · intro h
    induction h generalizing j with
    | refl =>
      rw [hindexed.position_unique hi hj rfl]
    | @tail b c _ htouches ih =>
      obtain ⟨k, hk⟩ := List.getElem?_of_mem htouches.mem
      exact (ih hk).tail ((near_iff hk hj).mpr htouches)

/-! ## The verdict -/

/-- The roots that the search starts from are those of the anchor. -/
theorem anchorRoots_perm (hindexed : Indexed nodes index) {roots : List Nat}
    (hroots : validateParentTopology nodes index = .ok roots) (anchor : Text) :
    (roots.filter fun root => decide (nodes[root]?.map SpanNode.traceId = some anchor)).Perm
      (positionsOf anchor (rootPairs 0 nodes)) := by
  have hperm := roots_perm hindexed hroots
  have hnodup : roots.Nodup := hperm.nodup_iff.mpr (nodup_rootPositions nodes)
  have hpositions : (positionsOf anchor (rootPairs 0 nodes)).Nodup :=
    (nodup_rootPositions nodes).sublist (List.filter_sublist.map _)
  refine (List.perm_ext_iff_of_nodup (hnodup.filter _) hpositions).mpr fun i => ?_
  rw [List.mem_filter, decide_eq_true_eq, hperm.mem_iff, mem_positionsOf, List.mem_map]
  constructor
  · rintro ⟨⟨⟨traceId, _⟩, hpair, rfl⟩, hanchor⟩
    obtain ⟨node, hnode, hroot, -⟩ := mem_rootPairs.mp hpair
    rw [hnode] at hanchor
    exact ⟨node, hnode, List.mem_of_getElem? hnode, Option.some.inj hanchor, hroot⟩
  · rintro ⟨node, hnode, -, htrace, hroot⟩
    refine ⟨⟨(anchor, i), mem_rootPairs.mpr ⟨node, hnode, hroot, htrace⟩, rfl⟩, ?_⟩
    rw [hnode, Option.map_some, htrace]

/-- The last check passes exactly when the anchor is there and all hangs together. -/
theorem validateCausalConnectivity_ok (hindexed : Indexed nodes index) {roots : List Nat}
    {links : List SpanLink} (hroots : validateParentTopology nodes index = .ok roots)
    (hlinks : Resolved parse nodes index links) {anchor : Text} :
    validateCausalConnectivity anchor nodes index roots links = .ok () ↔
      anchor ∈ nodes.map SpanNode.traceId ∧ ∀ root node, IsRoot nodes anchor root → node ∈ nodes →
        Relation.ReflTransGen (Touches nodes) root node := by
  have hknown := ((validateParentTopology_ok hindexed).mp hroots).1
  have htrees := (topology_iff hindexed).mp ⟨roots, hroots⟩
  have hperm := anchorRoots_perm hindexed hroots anchor
  obtain ⟨pushes, hpushes, hnear⟩ := pushes_ok hindexed hknown hlinks
  have hsearch : ∀ {i : Nat} {root : SpanNode}, nodes[i]? = some root →
      ((reachable (pushes ++ linkPushes links) [i]).length = nodes.length ↔
        ∀ node ∈ nodes, Relation.ReflTransGen (Touches nodes) root node) := by
    intro i root hi
    rw [reachable_length hnear (List.getElem?_eq_some_iff.mp hi).1]
    constructor
    · intro h node hnode
      obtain ⟨j, hj⟩ := List.getElem?_of_mem hnode
      exact (paths_iff hindexed hi hj).mp (h j (List.getElem?_eq_some_iff.mp hj).1)
    · intro h j hj
      have hnode := List.getElem?_eq_getElem hj
      exact (paths_iff hindexed hi hnode).mpr (h _ (List.mem_of_getElem? hnode))
  unfold validateCausalConnectivity
  rw [ensure_bind_ok, hpushes, decide_eq_true_eq]
  show _ ∧ ensure _ _ = .ok () ↔ _
  rw [ensure_ok, decide_eq_true_eq]
  constructor
  · rintro ⟨hone, hcount⟩
    obtain ⟨i, hi⟩ := List.length_eq_one_iff.mp hone
    rw [hi] at hcount hperm
    have hmem := hperm.mem_iff.mp List.mem_cons_self
    obtain ⟨top, htop, hisRoot⟩ := mem_positionsOf.mp hmem
    have hanchor : anchor ∈ nodes.map SpanNode.traceId :=
      List.mem_map.mpr ⟨top, hisRoot.1, hisRoot.2.1⟩
    refine ⟨hanchor, fun root node hroot hnode => ?_⟩
    obtain ⟨only, honly, -⟩ := htrees anchor hanchor
    rw [(honly root).mp hroot, ← (honly top).mp hisRoot]
    exact (hsearch htop).mp hcount node hnode
  · rintro ⟨hanchor, hconnected⟩
    have hone := ((trees_iff hindexed).mp htrees).1 anchor hanchor
    obtain ⟨i, hi⟩ := List.length_eq_one_iff.mp hone
    have hmem : i ∈ positionsOf anchor (rootPairs 0 nodes) := by
      rw [hi]
      exact List.mem_cons_self
    obtain ⟨root, hroot, hisRoot⟩ := mem_positionsOf.mp hmem
    rw [hi] at hperm
    rw [List.perm_singleton.mp hperm]
    exact ⟨rfl, (hsearch hroot).mpr fun node hnode => hconnected root node hisRoot hnode⟩

/-- The checks pass exactly for the well-formed graphs whose links are not too many. -/
theorem verifyGraph_ok {anchor : Text} :
    verifyGraph parse anchor nodes = .ok () ↔
      LinksBounded nodes ∧ WellFormed parse anchor nodes := by
  unfold verifyGraph
  simp only [bind_ok_iff, indexSpans_ok, validateTypedLinks_ok]
  constructor
  · rintro ⟨_, ⟨hdistinct, rfl⟩, roots, hroots, links, ⟨hbounds, hlinks, hpairs⟩, hcausal⟩
    have hindexed := indexed_of_distinct hdistinct
    obtain ⟨-, hwell, honce⟩ := (links_iff hindexed).mp
      ⟨links, validateTypedLinks_ok.mpr ⟨hbounds, hlinks, hpairs⟩⟩
    obtain ⟨hanchor, hconnected⟩ :=
      (validateCausalConnectivity_ok hindexed hroots hlinks).mp hcausal
    exact ⟨hbounds, {
      distinct := hdistinct
      trees := (topology_iff hindexed).mp ⟨roots, hroots⟩
      links := hwell
      linkedOnce := honce
      anchored := hanchor
      connected := hconnected }⟩
  · rintro ⟨hbounds, h⟩
    have hindexed := indexed_of_distinct h.distinct
    obtain ⟨roots, hroots⟩ := (topology_iff hindexed).mpr h.trees
    obtain ⟨links, hlinks⟩ := (links_iff hindexed).mpr ⟨hbounds, h.links, h.linkedOnce⟩
    have hlinks := validateTypedLinks_ok.mp hlinks
    exact ⟨_, ⟨h.distinct, rfl⟩, roots, hroots, links, hlinks,
      (validateCausalConnectivity_ok hindexed hroots hlinks.2.1).mpr ⟨h.anchored, h.connected⟩⟩

/-! ## Orders -/

theorem SameSpan.refl (a : SpanNode) : SameSpan a a :=
  ⟨rfl, rfl, rfl, rfl, rfl, rfl, .refl _⟩

theorem SameSpan.symm {a b : SpanNode} (h : SameSpan a b) : SameSpan b a :=
  ⟨h.traceId.symm, h.spanId.symm, h.parentSpanId.symm, h.kind.symm, h.attributes.symm,
    h.listed.symm, h.links.symm⟩

theorem SameSpan.trans {a b c : SpanNode} (h : SameSpan a b) (h' : SameSpan b c) :
    SameSpan a c :=
  ⟨h.traceId.trans h'.traceId, h.spanId.trans h'.spanId, h.parentSpanId.trans h'.parentSpanId,
    h.kind.trans h'.kind, h.attributes.trans h'.attributes, h.listed.trans h'.listed,
    h.links.trans h'.links⟩

theorem SameSpan.key {a b : SpanNode} (h : SameSpan a b) : a.key = b.key :=
  Prod.ext h.traceId h.spanId

theorem SameSpan.attributeString {a b : SpanNode} (h : SameSpan a b) (key : String) :
    attributeString parse a key = attributeString parse b key := by
  unfold TraceGraph.attributeString
  rw [h.attributes]

theorem SameSpan.messagingRole {a b : SpanNode} (h : SameSpan a b) :
    messagingRole parse a = messagingRole parse b := by
  unfold TraceGraph.messagingRole isRabbitmqOperation
  rw [h.attributeString, h.attributeString, h.kind]

variable {nodes' : List SpanNode}

theorem Reordered.symm (h : Reordered nodes nodes') : Reordered nodes' nodes := by
  induction h with
  | nil => exact .nil
  | cons hsame _ ih => exact .cons hsame.symm ih
  | swap a b rest => exact .swap b a rest
  | trans _ _ ih ih' => exact ih'.trans ih

theorem Reordered.partner (h : Reordered nodes nodes') {a : SpanNode} (ha : a ∈ nodes) :
    ∃ b ∈ nodes', SameSpan a b := by
  induction h generalizing a with
  | nil => cases ha
  | @cons c d _ _ hsame _ ih =>
    rcases List.mem_cons.mp ha with rfl | ha
    · exact ⟨d, List.mem_cons_self, hsame⟩
    · obtain ⟨b, hb, hab⟩ := ih ha
      exact ⟨b, List.mem_cons_of_mem d hb, hab⟩
  | swap b c rest => exact ⟨a, (List.Perm.swap c b rest).mem_iff.mp ha, .refl a⟩
  | trans _ _ ih ih' =>
    obtain ⟨b, hb, hab⟩ := ih ha
    obtain ⟨c, hc, hbc⟩ := ih' hb
    exact ⟨c, hc, hab.trans hbc⟩

theorem Reordered.flatMap {β : Type} {f : SpanNode → List β}
    (hf : ∀ a b, SameSpan a b → (f a).Perm (f b)) (h : Reordered nodes nodes') :
    (nodes.flatMap f).Perm (nodes'.flatMap f) := by
  induction h with
  | nil => exact .nil
  | cons hsame _ ih =>
    rw [List.flatMap_cons, List.flatMap_cons]
    exact (hf _ _ hsame).append ih
  | swap a b rest => exact (List.Perm.swap b a rest).flatMap_right f
  | trans _ _ ih ih' => exact ih.trans ih'

theorem Reordered.map {β : Type} {f : SpanNode → β} (hf : ∀ a b, SameSpan a b → f a = f b)
    (h : Reordered nodes nodes') : (nodes.map f).Perm (nodes'.map f) := by
  rw [List.map_eq_flatMap, List.map_eq_flatMap]
  exact h.flatMap fun a b hab => by rw [hf a b hab]

theorem LinksBounded.reordered (h : LinksBounded nodes) (horder : Reordered nodes nodes') :
    LinksBounded nodes' where
  perSpan := by
    intro b hb
    obtain ⟨a, ha, hba⟩ := horder.symm.partner hb
    obtain ⟨links, hsome, hbound⟩ := h.perSpan a ha
    have hlisted := hba.listed
    rw [hsome] at hlisted
    obtain ⟨links', hsome'⟩ := Option.isSome_iff_exists.mp hlisted
    refine ⟨links', hsome', ?_⟩
    have hlength := hba.links.length_eq
    simp only [SpanNode.links, hsome, hsome', Option.getD_some] at hlength
    omega
  total := by
    have hperm := horder.map (f := fun node => node.links.length) fun a b hab =>
      hab.links.length_eq
    rw [← hperm.sum_eq]
    exact h.total

/-- Paths are taken over to the reordered graph. -/
theorem Reordered.path (horder : Reordered nodes nodes')
    (hdistinct : (nodes'.map SpanNode.key).Nodup)
    {r r' : SpanNode → SpanNode → Prop} (hmem : ∀ a b, r a b → a ∈ nodes)
    (hedge : ∀ a b a' b', r a b → SameSpan a a' → SameSpan b b' → a' ∈ nodes' → b' ∈ nodes' →
      r' a' b')
    {a b a' b' : SpanNode} (h : Relation.ReflTransGen r a b) (haa : SameSpan a a')
    (hbb : SameSpan b b') (ha : a' ∈ nodes') (hb : b' ∈ nodes') :
    Relation.ReflTransGen r' a' b' := by
  induction h generalizing b' with
  | refl =>
    have hkey : a'.key = b'.key := haa.key.symm.trans hbb.key
    rw [List.inj_on_of_nodup_map hdistinct ha hb hkey]
  | tail _ hlast ih =>
    obtain ⟨c, hc, hcc⟩ := horder.partner (hmem _ _ hlast)
    exact (ih hcc hc).tail (hedge _ _ _ _ hlast hcc hbb hc hb)

theorem IsParent.reordered {a b a' b' : SpanNode} (h : IsParent nodes a b) (haa : SameSpan a a')
    (hbb : SameSpan b b') (ha : a' ∈ nodes') (hb : b' ∈ nodes') : IsParent nodes' a' b' := by
  obtain ⟨-, -, htrace, hparent⟩ := h
  refine ⟨ha, hb, ?_, ?_⟩
  · rw [← haa.traceId, ← hbb.traceId, htrace]
  · rw [← haa.spanId, ← hbb.parentSpanId, hparent]

theorem IsLinked.reordered {a b a' b' : SpanNode} (h : IsLinked nodes a b) (haa : SameSpan a a')
    (hbb : SameSpan b b') (ha : a' ∈ nodes') (hb : b' ∈ nodes') : IsLinked nodes' a' b' := by
  obtain ⟨-, -, link, hlink, hkey⟩ := h
  refine ⟨ha, hb, link, haa.links.mem_iff.mp hlink, ?_⟩
  rw [hkey, hbb.key]

theorem Touches.reordered {a b a' b' : SpanNode} (h : Touches nodes a b) (haa : SameSpan a a')
    (hbb : SameSpan b b') (ha : a' ∈ nodes') (hb : b' ∈ nodes') : Touches nodes' a' b' := by
  rcases h with h | h | h | h
  · exact .inl (h.reordered haa hbb ha hb)
  · exact .inr (.inl (h.reordered hbb haa hb ha))
  · exact .inr (.inr (.inl (h.reordered haa hbb ha hb)))
  · exact .inr (.inr (.inr (h.reordered hbb haa hb ha)))

theorem IsRoot.reordered {traceId : Text} {a a' : SpanNode} (h : IsRoot nodes traceId a)
    (haa : SameSpan a a') (ha : a' ∈ nodes') : IsRoot nodes' traceId a' :=
  ⟨ha, haa.traceId.symm.trans h.2.1, haa.parentSpanId.symm.trans h.2.2⟩

theorem WellFormedLink.reordered {source source' : SpanNode} {link : Json}
    (h : WellFormedLink parse nodes source link) (hsource : source ∈ nodes)
    (hdistinct : (nodes.map SpanNode.key).Nodup) (horder : Reordered nodes nodes')
    (hsame : SameSpan source source') : WellFormedLink parse nodes' source' link := by
  obtain ⟨members, traceId, spanId, raw, attributes, hlink, htrace, htraceId, hspan, hspanId, hraw,
    hsize, hparse, target, htarget, hkey, hne, hconsumes⟩ := h
  obtain ⟨target', htarget', hsame'⟩ := horder.partner htarget
  refine ⟨members, traceId, spanId, raw, attributes, hlink, htrace, htraceId, hspan, hspanId, hraw,
    hsize, hparse, target', htarget', hsame'.key ▸ hkey, ?_, ?_⟩
  · rintro rfl
    exact hne (List.inj_on_of_nodup_map hdistinct htarget hsource
      (hsame'.key.trans hsame.key.symm))
  · obtain ⟨hconsumer, hproducer, id, hid, hid', hblank⟩ := hconsumes
    exact ⟨hsame.messagingRole ▸ hconsumer, hsame'.messagingRole ▸ hproducer, id,
      hsame.attributeString _ ▸ hid, hsame'.attributeString _ ▸ hid', hblank⟩

theorem WellFormed.reordered {anchor : Text} (h : WellFormed parse anchor nodes)
    (horder : Reordered nodes nodes') : WellFormed parse anchor nodes' := by
  have hdistinct : (nodes'.map SpanNode.key).Nodup :=
    (horder.map fun _ _ hab => hab.key).nodup_iff.mp h.distinct
  have htraces := horder.map fun _ _ hab => SameSpan.traceId hab
  refine {
    distinct := hdistinct
    trees := ?_
    links := ?_
    linkedOnce := ?_
    anchored := htraces.mem_iff.mp h.anchored
    connected := ?_ }
  · intro traceId htrace
    obtain ⟨root, hroot, hall⟩ := h.trees traceId (htraces.mem_iff.mpr htrace)
    have hisRoot := (hroot root).mpr rfl
    obtain ⟨root', hmem, hsame⟩ := horder.partner hisRoot.1
    refine ⟨root', fun other => ⟨fun hother => ?_, ?_⟩, fun node hnode hin => ?_⟩
    · obtain ⟨old, hold, hsame'⟩ := horder.symm.partner hother.1
      have holdRoot := (hroot old).mp (hother.reordered hsame' hold)
      subst holdRoot
      exact List.inj_on_of_nodup_map hdistinct hother.1 hmem (hsame'.key.trans hsame.key)
    · rintro rfl
      exact hisRoot.reordered hsame hmem
    · obtain ⟨old, hold, hsame'⟩ := horder.symm.partner hnode
      exact horder.path hdistinct (fun _ _ hedge => hedge.1)
        (fun _ _ _ _ hedge => hedge.reordered) (hall old hold (hsame'.traceId.symm.trans hin))
        hsame hsame'.symm hmem hnode
  · intro node hnode link hlink
    obtain ⟨old, hold, hsame⟩ := horder.symm.partner hnode
    exact (h.links old hold link (hsame.links.mem_iff.mp hlink)).reordered hold h.distinct horder
      hsame.symm
  · refine (horder.flatMap fun a b hab => ?_).nodup_iff.mp h.linkedOnce
    rw [hab.key]
    exact hab.links.map _
  · intro root node hroot hnode
    obtain ⟨oldRoot, holdRoot, hsame⟩ := horder.symm.partner hroot.1
    obtain ⟨old, hold, hsame'⟩ := horder.symm.partner hnode
    exact horder.path hdistinct (fun _ _ hedge => hedge.mem) (fun _ _ _ _ hedge => hedge.reordered)
      (h.connected oldRoot old (hroot.reordered hsame holdRoot) hold) hsame.symm hsame'.symm
      hroot.1 hnode

/-- The verifier accepts exactly the well-formed graphs within the bounds on links, and
gives the same spans the same verdict in any order of the spans and of their links. -/
theorem causal_graph_verdict (parse : Text → Option Json) (anchor : Text)
    (nodes : List SpanNode) :
    (verifyGraph parse anchor nodes = .ok () ↔
      LinksBounded nodes ∧ WellFormed parse anchor nodes) ∧
    ∀ nodes', Reordered nodes nodes' →
      (verifyGraph parse anchor nodes' = .ok () ↔ verifyGraph parse anchor nodes = .ok ()) := by
  refine ⟨verifyGraph_ok, fun nodes' horder => ?_⟩
  rw [verifyGraph_ok, verifyGraph_ok]
  constructor
  · rintro ⟨hbounds, hgraph⟩
    exact ⟨hbounds.reordered horder.symm, hgraph.reordered horder.symm⟩
  · rintro ⟨hbounds, hgraph⟩
    exact ⟨hbounds.reordered horder, hgraph.reordered horder⟩

/-- A span alone in its trace is the tree of it. -/
theorem tree_of_alone {a : SpanNode} (ha : a ∈ nodes) (hroot : a.parentSpanId = none)
    (halone : ∀ node ∈ nodes, node.traceId = a.traceId → node = a) :
    ∃ root, (∀ other, IsRoot nodes a.traceId other ↔ other = root) ∧ ∀ node ∈ nodes,
      node.traceId = a.traceId → Relation.ReflTransGen (IsParent nodes) root node := by
  refine ⟨a, fun other => ⟨fun h => halone other h.1 h.2.1, ?_⟩, fun node hnode htrace => ?_⟩
  · rintro rfl
    exact ⟨ha, rfl, hroot⟩
  · rw [halone node hnode htrace]

def messageAttributes (operation : String) : Members :=
  [("messaging.system", .text "rabbitmq".toList),
    ("messaging.operation.name", .text operation.toList),
    ("messaging.message.id", .text "m-1".toList)]

def messageAttributesText (operation : String) : Text :=
  ("\x7b\"messaging.system\":\"rabbitmq\",\"messaging.operation.name\":\"" ++ operation ++
    "\",\"messaging.message.id\":\"m-1\"\x7d").toList

/-- The reader, on the texts of the two spans below. -/
def readAttributes (text : Text) : Option Json :=
  if text = messageAttributesText "send" then some (.object (messageAttributes "send"))
  else if text = messageAttributesText "process" then
    some (.object (messageAttributes "process"))
  else if text = "\x7b\x7d".toList then some (.object [])
  else none

/-- A message is sent. -/
def sendSpan : SpanNode where
  traceId := "4bf92f3577b34da6a3ce929d0e0e4736".toList
  spanId := "00f067aa0ba902b7".toList
  parentSpanId := none
  kind := some "SPAN_KIND_PRODUCER".toList
  attributes := some (messageAttributesText "send")
  typedLinks := some []

/-- It is processed in another trace. -/
def processSpan : SpanNode where
  traceId := "a3ce929d0e0e47364bf92f3577b34da6".toList
  spanId := "0ba902b700f067aa".toList
  parentSpanId := none
  kind := some "SPAN_KIND_CONSUMER".toList
  attributes := some (messageAttributesText "process")
  typedLinks := some [.object [
    ("traceId", .text "4bf92f3577b34da6a3ce929d0e0e4736".toList),
    ("spanId", .text "00f067aa0ba902b7".toList),
    ("attributes", .text "\x7b\x7d".toList)]]

theorem causal_graph_verdict_linked :
    verifyGraph readAttributes sendSpan.traceId [sendSpan, processSpan] = .ok () ∧
      verifyGraph readAttributes sendSpan.traceId [processSpan, sendSpan] = .ok () := by
  have htraces : processSpan.traceId ≠ sendSpan.traceId := by decide
  have hlinked : IsLinked [sendSpan, processSpan] processSpan sendSpan :=
    ⟨by simp, by simp, _, List.mem_cons_self, by decide⟩
  have hconsumes : Consumes readAttributes processSpan sendSpan :=
    ⟨by decide, by decide, "m-1".toList, by decide, by decide, by decide⟩
  have hbounds : LinksBounded [sendSpan, processSpan] := by
    refine ⟨fun node hnode => ?_, by decide⟩
    rcases List.mem_pair.mp hnode with rfl | rfl
    · exact ⟨_, rfl, by decide⟩
    · exact ⟨_, rfl, by decide⟩
  have hgraph : WellFormed readAttributes sendSpan.traceId [sendSpan, processSpan] := by
    refine ⟨by decide, ?_, ?_, by decide, List.mem_cons_self, ?_⟩
    · intro traceId htrace
      rcases List.mem_pair.mp htrace with rfl | rfl
      · refine tree_of_alone List.mem_cons_self rfl fun node hnode htrace => ?_
        exact (List.mem_pair.mp hnode).resolve_right fun h => htraces (h ▸ htrace)
      · refine tree_of_alone (by simp) rfl fun node hnode htrace => ?_
        exact (List.mem_pair.mp hnode).resolve_left fun h => htraces (h ▸ htrace).symm
    · intro node hnode link hlink
      rcases List.mem_pair.mp hnode with rfl | rfl
      · cases hlink
      · rw [List.mem_singleton.mp hlink]
        exact ⟨_, _, _, _, _, rfl, rfl, by decide, rfl, by decide, rfl, by decide, rfl, sendSpan,
          List.mem_cons_self, rfl, fun h => htraces (congrArg SpanNode.traceId h).symm, hconsumes⟩
    · rintro root node ⟨hmem, htrace, -⟩ hnode
      have hsend := (List.mem_pair.mp hmem).resolve_right fun h => htraces (h ▸ htrace)
      rw [hsend]
      rcases List.mem_pair.mp hnode with rfl | rfl
      · exact .refl
      · exact .single (.inr (.inr (.inr hlinked)))
  have h := causal_graph_verdict readAttributes sendSpan.traceId [sendSpan, processSpan]
  exact ⟨h.1.mpr ⟨hbounds, hgraph⟩, (h.2 _ (.swap _ _ [])).mpr (h.1.mpr ⟨hbounds, hgraph⟩)⟩

end CommercePlayground.Cli.TraceGraph
