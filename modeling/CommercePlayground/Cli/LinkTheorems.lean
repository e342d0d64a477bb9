/-
CommercePlayground.Cli.LinkTheorems — which typed links pass.

A link passes by itself exactly when it is well formed (`resolveLink_ok`), and the loops
add up what single links resolve to, under the bounds on their number and unless a pair of
positions comes twice (`linksFrom_ok`). Since every span has one position, that is a pair
of spans linked twice (`links_iff`).
-/
import CommercePlayground.Cli.TopologyTheorems
import Mathlib.Data.List.Nodup

namespace CommercePlayground.Cli.TraceGraph

open Lib

variable {parse : Text → Option Json} {nodes : List SpanNode} {index : SpanIndex}

/-! ## One link -/

theorem validateLinkSemantics_ok {source target : SpanNode} {u : Unit} :
    validateLinkSemantics parse source target = .ok u ↔ Consumes parse source target := by
  unfold validateLinkSemantics
  simp only [context_bind_ok, ensure_bind_ok, ensure_ok, Bool.and_eq_true, decide_eq_true_eq,
    Bool.not_eq_true']
  constructor
  · rintro ⟨_, hsource, _, htarget, ⟨rfl, rfl⟩, id, hid, _, hid', ⟨hblank, -⟩, rfl⟩
    exact ⟨hsource, htarget, id, hid, hid', hblank⟩
  · rintro ⟨hsource, htarget, id, hid, hid', hblank⟩
    exact ⟨_, hsource, _, htarget, ⟨rfl, rfl⟩, id, hid, id, hid', ⟨hblank, hblank⟩, rfl⟩

theorem get_of_getString {members : Members} {key : String} {value : Text}
    (h : getString members key = some value) : Json.get members key = some (.text value) := by
  unfold getString at h
  split at h
  · cases h
    assumption
  · cases h

theorem asObject_eq_some {json : Json} {members : Members} :
    asObject json = some members ↔ json = .object members := by
  cases json <;> simp [asObject]

theorem validateLinkAttributes_ok {link : Members} {parsed : Json} :
    validateLinkAttributes parse link = .ok parsed ↔
      ∃ raw attributes, getString link "attributes" = some raw ∧
        (utf8 raw).length ≤ maxLinkAttributesBytes ∧ parse raw = some (.object attributes) ∧
        parsed = .object attributes := by
  unfold validateLinkAttributes
  simp only [context_bind_ok, ensure_bind_ok, decide_eq_true_eq, Option.isSome_iff_exists,
    asObject_eq_some]
  constructor
  · rintro ⟨_, -, raw, hraw, hsize, _, hparse, ⟨attributes, rfl⟩, h⟩
    exact ⟨raw, attributes, hraw, hsize, hparse, (Except.ok.inj h).symm⟩
  · rintro ⟨raw, attributes, hraw, hsize, hparse, rfl⟩
    exact ⟨_, get_of_getString hraw, raw, hraw, hsize, _, hparse, ⟨attributes, rfl⟩, rfl⟩

theorem linkKey_eq {members : Members} {traceId spanId : Text}
    (htrace : getString members "traceId" = some traceId)
    (hspan : getString members "spanId" = some spanId) :
    linkKey (.object members) = some (traceId, spanId) := by
  simp [linkKey, asObject, htrace, hspan]

/-- A link resolves exactly when it is well formed, to the position of the span it names. -/
theorem resolveLink_ok (hindexed : Indexed nodes index) {source : Nat} {node : SpanNode}
    (hnode : nodes[source]? = some node) {link : Json} :
    (∃ found, resolveLink parse nodes index source node link = .ok found) ↔
      WellFormedLink parse nodes node link := by
  unfold resolveLink
  simp only [bind_ok_iff, context_ok, ensure_ok, exists_const, asObject_eq_some,
    validateLinkAttributes_ok, validateLinkSemantics_ok, decide_eq_true_eq]
  constructor
  · rintro ⟨found, members, rfl, traceId, htrace, htraceId, spanId, hspan, hspanId, _,
      ⟨raw, attributes, hraw, hsize, hparse, rfl⟩, target, hlookup, hne, targetNode, htarget,
      hconsumes, -⟩
    obtain ⟨named, hnamed, hkey⟩ := (hindexed.lookup _ _).mp hlookup
    rw [htarget] at hnamed
    cases hnamed
    refine ⟨members, traceId, spanId, raw, attributes, rfl, htrace, htraceId, hspan, hspanId, hraw,
      hsize, hparse, targetNode, List.mem_of_getElem? htarget, hkey, ?_, hconsumes⟩
    rintro rfl
    exact hne (hindexed.position_unique hnode htarget rfl)
  · rintro ⟨members, traceId, spanId, raw, attributes, rfl, htrace, htraceId, hspan, hspanId, hraw,
      hsize, hparse, target, hmem, hkey, hne, hconsumes⟩
    obtain ⟨position, htarget⟩ := List.getElem?_of_mem hmem
    refine ⟨_, members, rfl, traceId, htrace, htraceId, spanId, hspan, hspanId, _,
      ⟨raw, attributes, hraw, hsize, hparse, rfl⟩, position,
      (hindexed.lookup _ _).mpr ⟨target, htarget, hkey⟩, ?_, target, htarget, hconsumes, rfl⟩
    rintro rfl
    rw [hnode] at htarget
    cases htarget
    exact hne rfl

theorem resolveLink_target (hindexed : Indexed nodes index) {source : Nat} {node : SpanNode}
    {link : Json} {found : SpanLink}
    (h : resolveLink parse nodes index source node link = .ok found) :
    found.source = source ∧ ∃ target, nodes[found.target]? = some target ∧
      linkKey link = some target.key := by
  unfold resolveLink at h
  simp only [bind_ok_iff, context_ok, ensure_ok, exists_const, asObject_eq_some] at h
  obtain ⟨members, rfl, traceId, htrace, -, spanId, hspan, -, _, -, target, hlookup, -, targetNode,
    -, _, -, h⟩ := h
  obtain ⟨named, hnamed, hkey⟩ := (hindexed.lookup _ _).mp hlookup
  cases h
  exact ⟨rfl, named, hnamed, by rw [linkKey_eq htrace hspan, hkey]⟩

/-! ## All links -/

def SpanLink.pair (link : SpanLink) : Nat × Nat := (link.source, link.target)

/-- The state after some links have been added. -/
def LinkState.add (state : LinkState) (found : List SpanLink) : LinkState :=
  { state with
    links := state.links ++ found
    seen := (found.map SpanLink.pair).reverse ++ state.seen }

theorem LinkState.add_nil (state : LinkState) : state.add [] = state := by
  simp [LinkState.add]

theorem LinkState.add_append (state : LinkState) (a b : List SpanLink) :
    (state.add a).add b = state.add (a ++ b) := by
  simp [LinkState.add]

/-- No pair comes twice, and none that was seen. -/
def Fresh (seen : List (Nat × Nat)) (found : List SpanLink) : Prop :=
  (found.map SpanLink.pair).Nodup ∧ ∀ link ∈ found, link.pair ∉ seen

theorem fresh_append {state : LinkState} {a b : List SpanLink} :
    Fresh state.seen (a ++ b) ↔ Fresh state.seen a ∧ Fresh (state.add a).seen b := by
  simp only [Fresh, LinkState.add, List.map_append, List.nodup_append', List.mem_append,
    List.mem_reverse, not_or, List.Disjoint, List.mem_map]
  constructor
  · rintro ⟨⟨ha, hb, hdisjoint⟩, hseen⟩
    refine ⟨⟨ha, fun link hlink => hseen link (.inl hlink)⟩, hb, fun link hlink => ?_⟩
    exact ⟨fun hm => hdisjoint hm ⟨link, hlink, rfl⟩, hseen link (.inr hlink)⟩
  · rintro ⟨⟨ha, hseenA⟩, hb, hseenB⟩
    refine ⟨⟨ha, hb, ?_⟩, ?_⟩
    · rintro pair hpairA ⟨link, hlink, rfl⟩
      exact (hseenB link hlink).1 hpairA
    · rintro link (hlink | hlink)
      · exact hseenA link hlink
      · exact (hseenB link hlink).2

theorem addLinks_ok {source : Nat} {node : SpanNode} {links : List Json}
    {state final : LinkState} :
    addLinks parse nodes index source node links state = .ok final ↔
      ∃ found, links.mapM (resolveLink parse nodes index source node) = .ok found ∧
        Fresh state.seen found ∧ final = state.add found := by
  induction links generalizing state with
  | nil =>
    constructor
    · intro h
      cases h
      exact ⟨[], rfl, ⟨List.nodup_nil, fun _ h => absurd h List.not_mem_nil⟩,
        (LinkState.add_nil _).symm⟩
    · rintro ⟨found, hfound, -, rfl⟩
      cases hfound
      exact congrArg Except.ok (LinkState.add_nil state).symm
  | cons link rest ih =>
    have hfirst : ∀ found : SpanLink, Fresh state.seen [found] ↔
        (!state.seen.contains (found.source, found.target)) = true := by
      intro found
      simp [Fresh, SpanLink.pair]
    have hadd : ∀ found : SpanLink, state.add [found] =
        { state with
          links := state.links ++ [found]
          seen := (found.source, found.target) :: state.seen } := fun _ => rfl
    unfold addLinks
    simp only [bind_ok_iff, ensure_ok, exists_const, List.mapM_cons, ← hadd, ← hfirst, ih]
    constructor
    · rintro ⟨found, hfound, hnew, more, hmore, hfresh, rfl⟩
      refine ⟨found :: more, ⟨found, hfound, more, hmore, rfl⟩, ?_,
        state.add_append [found] more⟩
      exact fresh_append.mpr ⟨hnew, hfresh⟩
    · rintro ⟨_, ⟨found, hfound, more, hmore, heq⟩, hfresh, rfl⟩
      cases heq
      have hsplit : Fresh state.seen ([found] ++ more) := hfresh
      obtain ⟨hnew, hfresh⟩ := fresh_append.mp hsplit
      exact ⟨found, hfound, hnew, more, hmore, hfresh,
        (state.add_append [found] more).symm⟩

/-! ## All links -/

/-- The links of some spans, each with its span and its position. -/
def linkEntries (source : Nat) (nodes : List SpanNode) : List ((SpanNode × Nat) × Json) :=
  (nodes.zipIdx source).flatMap fun entry => entry.1.links.map fun link => (entry, link)

def resolveEntry (parse : Text → Option Json) (nodes : List SpanNode) (index : SpanIndex)
    (entry : (SpanNode × Nat) × Json) : Except String SpanLink :=
  resolveLink parse nodes index entry.1.2 entry.1.1 entry.2

/-- A span with no more links than it may have. -/
def SpanBounded (node : SpanNode) : Prop :=
  ∃ links, node.typedLinks = some links ∧ links.length ≤ maxTypedLinksPerSpan

def totalLinks (nodes : List SpanNode) : Nat := (nodes.map fun node => node.links.length).sum

theorem linkEntries_mapM {source : Nat} {node : SpanNode} {rest : List SpanNode}
    {found : List SpanLink} :
    (linkEntries source (node :: rest)).mapM (resolveEntry parse nodes index) = .ok found ↔
      ∃ first, node.links.mapM (resolveLink parse nodes index source node) = .ok first ∧
        ∃ more, (linkEntries (source + 1) rest).mapM (resolveEntry parse nodes index) =
          .ok more ∧ first ++ more = found := by
  have hentries : linkEntries source (node :: rest) =
      node.links.map (fun link => ((node, source), link)) ++ linkEntries (source + 1) rest := by
    simp [linkEntries]
  rw [hentries, mapM_append_ok, List.mapM_map]
  rfl

/-- The loops pass exactly when there are not too many links, each resolves and no pair
comes twice. -/
theorem linksFrom_ok {source : Nat} {rest : List SpanNode} {state final : LinkState}
    (htotal : state.total ≤ maxTotalTypedLinks) :
    linksFrom parse nodes index source rest state = .ok final ↔
      (∀ node ∈ rest, SpanBounded node) ∧ state.total + totalLinks rest ≤ maxTotalTypedLinks ∧
      ∃ found, (linkEntries source rest).mapM (resolveEntry parse nodes index) = .ok found ∧
        Fresh state.seen found ∧
        final = { state.add found with total := state.total + totalLinks rest } := by
  induction rest generalizing source state final with
  | nil =>
    constructor
    · intro h
      cases h
      exact ⟨fun n hn => absurd hn List.not_mem_nil, htotal, [], rfl,
        ⟨List.nodup_nil, fun _ h => absurd h List.not_mem_nil⟩, (LinkState.add_nil _).symm⟩
    · rintro ⟨-, -, found, hfound, -, rfl⟩
      cases hfound
      exact congrArg Except.ok (LinkState.add_nil _).symm
  | cons node rest ih =>
    have hlinks : ∀ links, node.typedLinks = some links → node.links = links := by
      intro links h
      simp [SpanNode.links, h]
    have hsum : totalLinks (node :: rest) = node.links.length + totalLinks rest := rfl
    -- The totals apart, the links of the span and then those of the rest are all links.
    have hjoin : ∀ count total first more,
        { (({ state with total := count } : LinkState).add first).add more with total := total } =
          { state.add (first ++ more) with total := total } := by
      intro count total first more
      simp [LinkState.add]
    unfold linksFrom
    simp only [context_bind_ok, ensure_bind_ok, decide_eq_true_eq, List.forall_mem_cons]
    constructor
    · rintro ⟨links, hsome, hbound, hsofar, h⟩
      obtain ⟨mid, hmid, h⟩ := bind_ok h
      obtain ⟨first, hfirst, hfresh, rfl⟩ := addLinks_ok.mp hmid
      obtain ⟨hrest, hall, more, hmore, hfresh', rfl⟩ := (ih hsofar).mp h
      rw [hsum, hlinks links hsome, ← Nat.add_assoc]
      refine ⟨⟨⟨links, hsome, hbound⟩, hrest⟩, hall, first ++ more, ?_, ?_, hjoin _ _ _ _⟩
      · exact linkEntries_mapM.mpr ⟨first, (hlinks links hsome).symm ▸ hfirst, more, hmore, rfl⟩
      · exact fresh_append.mpr ⟨hfresh, hfresh'⟩
    · rintro ⟨⟨⟨links, hsome, hbound⟩, hrest⟩, hall, found, hfound, hfresh, rfl⟩
      rw [hsum, hlinks links hsome, ← Nat.add_assoc] at hall ⊢
      obtain ⟨first, hfirst, more, hmore, rfl⟩ := linkEntries_mapM.mp hfound
      rw [hlinks links hsome] at hfirst
      obtain ⟨hfresh, hfresh'⟩ := fresh_append.mp hfresh
      have hsofar : state.total + links.length ≤ maxTotalTypedLinks := by omega
      have hmid : (({ state with total := state.total + links.length } : LinkState).add
          first).total ≤ maxTotalTypedLinks := hsofar
      have hlast := (ih hmid).mpr ⟨hrest, hall, more, hmore, hfresh', rfl⟩
      rw [hjoin] at hlast
      exact ⟨links, hsome, hbound, hsofar, bind_ok_iff.mpr
        ⟨_, addLinks_ok.mpr ⟨first, hfirst, hfresh, rfl⟩, hlast⟩⟩

theorem mem_linkEntries {node : SpanNode} {i : Nat} {link : Json} :
    ((node, i), link) ∈ linkEntries 0 nodes ↔ nodes[i]? = some node ∧ link ∈ node.links := by
  unfold linkEntries
  simp only [List.mem_flatMap, List.mem_map, Prod.mk.injEq]
  constructor
  · rintro ⟨entry, hentry, link', hlink, rfl, rfl⟩
    exact ⟨List.mem_zipIdx_iff_getElem?.mp hentry, hlink⟩
  · rintro ⟨hnode, hlink⟩
    exact ⟨(node, i), List.mem_zipIdx_iff_getElem?.mpr hnode, link, hlink, rfl, rfl⟩

/-! ## The edges of the links -/

/-- The step along a typed link, between positions. -/
def Joins (nodes : List SpanNode) (i j : Nat) : Prop :=
  ∃ source target, nodes[i]? = some source ∧ nodes[j]? = some target ∧
    ∃ link ∈ source.links, linkKey link = some target.key

/-- The links of a run of the loops. -/
def Resolved (parse : Text → Option Json) (nodes : List SpanNode) (index : SpanIndex)
    (links : List SpanLink) : Prop :=
  (linkEntries 0 nodes).mapM (resolveEntry parse nodes index) = .ok links

theorem Resolved.joins {links : List SpanLink} (h : Resolved parse nodes index links)
    (hindexed : Indexed nodes index) {link : SpanLink} (hlink : link ∈ links) :
    Joins nodes link.source link.target := by
  obtain ⟨⟨⟨node, i⟩, raw⟩, hentry, hresolve⟩ := mem_of_mapM_ok h hlink
  obtain ⟨hnode, hraw⟩ := mem_linkEntries.mp hentry
  obtain ⟨rfl, target, htarget, hkey⟩ := resolveLink_target hindexed hresolve
  exact ⟨node, target, hnode, htarget, raw, hraw, hkey⟩

/-- The identities of the spans at two positions. -/
def keysAt (nodes : List SpanNode) (pair : Nat × Nat) : Option SpanKey × Option SpanKey :=
  (nodes[pair.1]?.map SpanNode.key, nodes[pair.2]?.map SpanNode.key)

/-- The links have the identities that the raw links name, in their order. -/
theorem Resolved.keys {links : List SpanLink} (h : Resolved parse nodes index links)
    (hindexed : Indexed nodes index) :
    links.map (fun link => keysAt nodes link.pair) =
      (linkEntries 0 nodes).map fun entry => (some entry.1.1.key, linkKey entry.2) := by
  refine map_of_mapM_ok h ?_
  rintro ⟨⟨node, i⟩, raw⟩ hentry link hresolve
  obtain ⟨hnode, -⟩ := mem_linkEntries.mp hentry
  obtain ⟨hsource, target, htarget, hkey⟩ := resolveLink_target hindexed hresolve
  have hsource : link.source = i := hsource
  simp only [keysAt, SpanLink.pair, hsource, hnode, htarget, hkey, Option.map_some]

theorem Resolved.mem_pairs {links : List SpanLink} (h : Resolved parse nodes index links)
    (hindexed : Indexed nodes index) {i j : Nat} :
    (i, j) ∈ links.map SpanLink.pair ↔ Joins nodes i j := by
  constructor
  · intro hmem
    obtain ⟨link, hlink, heq⟩ := List.mem_map.mp hmem
    cases heq
    exact h.joins hindexed hlink
  · rintro ⟨source, target, hsource, htarget, raw, hraw, hkey⟩
    have hentry : (some source.key, linkKey raw) ∈
        (linkEntries 0 nodes).map fun entry => (some entry.1.1.key, linkKey entry.2) :=
      List.mem_map.mpr ⟨((source, i), raw), mem_linkEntries.mpr ⟨hsource, hraw⟩, rfl⟩
    rw [← h.keys hindexed] at hentry
    obtain ⟨link, hlink, heq⟩ := List.mem_map.mp hentry
    obtain ⟨a, b, ha, hb, -⟩ := h.joins hindexed hlink
    rw [keysAt, SpanLink.pair, ha, hb, hkey] at heq
    obtain ⟨hsame, hsame'⟩ := Prod.mk.inj heq
    refine List.mem_map.mpr ⟨link, hlink, Prod.ext ?_ ?_⟩
    · exact hindexed.position_unique ha hsource (Option.some.inj hsame)
    · exact hindexed.position_unique hb htarget (Option.some.inj hsame')

/-- No pair of positions comes twice exactly when no pair of spans is linked twice. -/
theorem Resolved.nodup_iff {links : List SpanLink} (h : Resolved parse nodes index links)
    (hindexed : Indexed nodes index) :
    (links.map SpanLink.pair).Nodup ↔
      (nodes.flatMap fun node => node.links.map fun link => (node.key, linkKey link)).Nodup := by
  have hpairs : (links.map SpanLink.pair).Nodup ↔
      (links.map fun link => keysAt nodes link.pair).Nodup := by
    have hmap : links.map (fun link => keysAt nodes link.pair) =
        (links.map SpanLink.pair).map (keysAt nodes) := by
      rw [List.map_map]
      rfl
    rw [hmap]
    refine ⟨fun hnodup => hnodup.map_on ?_, List.Nodup.of_map _⟩
    rintro ⟨i, j⟩ hij ⟨k, l⟩ hkl heq
    obtain ⟨a, b, ha, hb, -⟩ := (h.mem_pairs hindexed).mp hij
    obtain ⟨c, d, hc, hd, -⟩ := (h.mem_pairs hindexed).mp hkl
    simp only [keysAt, ha, hb, hc, hd, Option.map_some, Prod.mk.injEq, Option.some.injEq] at heq
    rw [hindexed.position_unique ha hc heq.1, hindexed.position_unique hb hd heq.2]
  have hnamed : (linkEntries 0 nodes).map (fun entry => (some entry.1.1.key, linkKey entry.2)) =
      (nodes.flatMap fun node => node.links.map fun link => (node.key, linkKey link)).map
        fun pair => (some pair.1, pair.2) := by
    have hflat : linkEntries 0 nodes = (nodes.zipIdx 0).flatMap fun entry =>
        entry.1.links.map fun link => (entry, link) := rfl
    rw [hflat, List.map_flatMap, List.map_flatMap]
    conv_rhs => rw [← List.zipIdx_map_fst 0 nodes]
    rw [List.flatMap_map]
    simp only [List.map_map, Function.comp_def]
  rw [hpairs, h.keys hindexed, hnamed]
  refine List.nodup_map_iff ?_
  rintro ⟨a, b⟩ ⟨c, d⟩ heq
  simpa using heq

/-! ## The verdict -/

theorem validateTypedLinks_ok {links : List SpanLink} :
    validateTypedLinks parse nodes index = .ok links ↔ LinksBounded nodes ∧
      Resolved parse nodes index links ∧ (links.map SpanLink.pair).Nodup := by
  have hbounds : LinksBounded nodes ↔
      (∀ node ∈ nodes, SpanBounded node) ∧ 0 + totalLinks nodes ≤ maxTotalTypedLinks := by
    rw [Nat.zero_add]
    exact ⟨fun h => ⟨h.perSpan, h.total⟩, fun h => ⟨h.1, h.2⟩⟩
  have hstart : (⟨[], [], 0⟩ : LinkState).total ≤ maxTotalTypedLinks := Nat.zero_le _
  unfold validateTypedLinks
  simp only [bind_ok_iff, linksFrom_ok hstart, hbounds]
  constructor
  · rintro ⟨_, ⟨hspans, hall, found, hfound, hfresh, rfl⟩, h⟩
    cases h
    exact ⟨⟨hspans, hall⟩, hfound, hfresh.1⟩
  · rintro ⟨⟨hspans, hall⟩, hfound, hnodup⟩
    exact ⟨_, ⟨hspans, hall, links, hfound, ⟨hnodup, fun _ _ => List.not_mem_nil⟩, rfl⟩, rfl⟩

/-- The checks on the links pass exactly when there are not too many, every one is well
formed and none comes twice. -/
theorem links_iff (hindexed : Indexed nodes index) :
    (∃ links, validateTypedLinks parse nodes index = .ok links) ↔ LinksBounded nodes ∧
      (∀ node ∈ nodes, ∀ link ∈ node.links, WellFormedLink parse nodes node link) ∧
      (nodes.flatMap fun node => node.links.map fun link => (node.key, linkKey link)).Nodup := by
  have hresolved : (∃ links, Resolved parse nodes index links) ↔
      ∀ node ∈ nodes, ∀ link ∈ node.links, WellFormedLink parse nodes node link := by
    unfold Resolved
    rw [exists_mapM_ok]
    constructor
    · intro h node hnode link hlink
      obtain ⟨i, hi⟩ := List.getElem?_of_mem hnode
      exact (resolveLink_ok hindexed hi).mp (h ((node, i), link) (mem_linkEntries.mpr ⟨hi, hlink⟩))
    · rintro h ⟨⟨node, i⟩, link⟩ hentry
      obtain ⟨hi, hlink⟩ := mem_linkEntries.mp hentry
      exact (resolveLink_ok hindexed hi).mpr (h node (List.mem_of_getElem? hi) link hlink)
  simp only [validateTypedLinks_ok]
  rw [← hresolved]
  constructor
  · rintro ⟨links, hbounds, hfound, hnodup⟩
    exact ⟨hbounds, ⟨links, hfound⟩, (hfound.nodup_iff hindexed).mp hnodup⟩
  · rintro ⟨hbounds, ⟨links, hfound⟩, hnodup⟩
    exact ⟨links, hbounds, hfound, (hfound.nodup_iff hindexed).mpr hnodup⟩

end CommercePlayground.Cli.TraceGraph
