/-
CommercePlayground.Cli.TraceGraph — the graph that the spans of a checkout form.

`commerce_verify.rs` fetches the traces of a checkout and holds them against the topology
of the services. Before it looks for any service it checks the graph itself: spans have
one identity, the parents of a trace form a tree, typed links join a consumer of a message
to its producer, and everything hangs together with the root of the anchor trace. A node
carries of its span what these checks read. `parse` is the JSON reader.
-/
import CommercePlayground.Cli.Checks
import CommercePlayground.Lib.Json
import CommercePlayground.Lib.Worklist
import Mathlib.Data.Char
import Mathlib.Data.List.Lex
import Mathlib.Logic.Relation

namespace CommercePlayground.Cli.TraceGraph

open Lib

/-! ## Nodes -/

abbrev SpanKey := Text × Text

structure SpanNode where
  traceId : Text
  spanId : Text
  parentSpanId : Option Text
  /-- `kind`, where it is a string. -/
  kind : Option Text
  /-- `attributes`, where it is a string. -/
  attributes : Option Text
  /-- `typedLinks`, where it is an array. -/
  typedLinks : Option (List Json)

def SpanNode.key (node : SpanNode) : SpanKey := (node.traceId, node.spanId)

structure SpanLink where
  source : Nat
  target : Nat
  attributes : Json

def maxTypedLinksPerSpan : Nat := 128
def maxTotalTypedLinks : Nat := 8192
def maxLinkAttributesBytes : Nat := 16 * 1024
def maxAttributeJsonBytes : Nat := 64 * 1024

/-- `is_ascii_hexdigit` -/
def isAsciiHexdigit (byte : Nat) : Bool :=
  decide (0x30 ≤ byte ∧ byte ≤ 0x39) || decide (0x41 ≤ byte ∧ byte ≤ 0x46) ||
    decide (0x61 ≤ byte ∧ byte ≤ 0x66)

/-- `is_hex` -/
def isHex (value : Text) (length : Nat) : Bool :=
  decide ((utf8 value).length = length) && (utf8 value).all isAsciiHexdigit

/-- `all_zero` -/
def allZero (value : Text) : Bool := (utf8 value).all fun byte => decide (byte = 0x30)

/-- `is_trace_id` -/
def isTraceId (value : Text) : Bool := isHex value 32 && !allZero value

/-- `is_span_id` -/
def isSpanId (value : Text) : Bool := isHex value 16 && !allZero value

/-! ## Identities -/

/-- The positions of the spans, the last first. -/
abbrev SpanIndex := List (SpanKey × Nat)

/-- The loop of `index_spans`, from a position on. -/
def indexFrom (position : Nat) (index : SpanIndex) : List SpanNode → Except String SpanIndex
  | [] => .ok index
  | node :: rest => do
    ensure (index.lookup node.key).isNone "Parallax returned duplicate span identity"
    indexFrom (position + 1) ((node.key, position) :: index) rest

/-- `index_spans`. -/
def indexSpans (nodes : List SpanNode) : Except String SpanIndex := indexFrom 0 [] nodes

/-! ## Parents -/

/-- `roots_by_trace.entry(trace_id).or_default().push(position)` -/
def pushRoot (traceId : Text) (position : Nat) :
    List (Text × List Nat) → List (Text × List Nat)
  | [] => [(traceId, [position])]
  | entry :: entries =>
    if entry.1 = traceId then (entry.1, entry.2 ++ [position]) :: entries
    else entry :: pushRoot traceId position entries

/-- The loop that collects the roots, from a position on. -/
def rootsFrom (index : SpanIndex) (position : Nat) (rootsByTrace : List (Text × List Nat)) :
    List SpanNode → Except String (List (Text × List Nat))
  | [] => .ok rootsByTrace
  | node :: rest =>
    match node.parentSpanId with
    | some parent => do
      ensure (index.lookup (node.traceId, parent)).isSome
        "Parallax parentSpanId does not reference a span in its trace"
      rootsFrom index (position + 1) rootsByTrace rest
    | none =>
      rootsFrom index (position + 1) (pushRoot node.traceId position rootsByTrace) rest

/-- The loop that follows parents up from a span. A position past the end would panic. -/
def climb (nodes : List SpanNode) (index : SpanIndex) (seen : List Nat) (current : Nat) :
    Except String Unit :=
  if current ∈ seen then .error "Parallax parent chain contains a cycle"
  else
    match _hnode : nodes[current]? with
    | none => .error "index out of bounds"
    | some node =>
      match node.parentSpanId with
      | none => .ok ()
      | some parent =>
        match index.lookup (node.traceId, parent) with
        | none => .error "Parallax parentSpanId lookup failed"
        | some next => climb nodes index (current :: seen) next
termination_by unseen (List.range nodes.length) seen
decreasing_by
  refine unseen_cons_lt (List.mem_range.mpr ?_) ‹_›
  exact (List.getElem?_eq_some_iff.mp _hnode).1

/-- `validate_parent_topology`. The map by trace is in the order of its keys. -/
def validateParentTopology (nodes : List SpanNode) (index : SpanIndex) :
    Except String (List Nat) := do
  let rootsByTrace ← rootsFrom index 0 [] nodes
  ensure (decide (rootsByTrace.length = (nodes.map SpanNode.traceId).dedup.length))
    "Parallax trace graph has a trace without a parent root"
  ensure (rootsByTrace.all fun entry => decide (entry.2.length = 1))
    "Parallax trace has multiple disconnected parent roots"
  (List.range nodes.length).forM (climb nodes index [])
  return (rootsByTrace.mergeSort fun a b => decide (a.1 ≤ b.1)).flatMap Prod.snd

/-! ## Typed links -/

section Links

variable (parse : Text → Option Json)

/-- `attribute_string`. -/
def attributeString (node : SpanNode) (key : String) : Option Text :=
  match node.attributes with
  | none => none
  | some raw =>
    if maxAttributeJsonBytes < (utf8 raw).length then none
    else
      match parse raw with
      | some (.object attributes) =>
        match Json.get attributes key with
        | some (.text value) => some value
        | _ => none
      | _ => none

inductive MessagingRole where
  | producer
  | consumer
  deriving DecidableEq

/-- `is_rabbitmq_operation`. -/
def isRabbitmqOperation (node : SpanNode) (operation : String) : Bool :=
  decide (attributeString parse node "messaging.system" = some "rabbitmq".toList) &&
    decide (attributeString parse node "messaging.operation.name" = some operation.toList)

/-- `messaging_role`. -/
def messagingRole (node : SpanNode) : Option MessagingRole :=
  if isRabbitmqOperation parse node "send" &&
      decide (node.kind = some "SPAN_KIND_PRODUCER".toList) then
    some .producer
  else if isRabbitmqOperation parse node "process" &&
      decide (node.kind = some "SPAN_KIND_CONSUMER".toList) then
    some .consumer
  else none

/-- `validate_link_semantics`. -/
def validateLinkSemantics (source target : SpanNode) : Except String Unit := do
  let sourceRole ← context (messagingRole parse source)
    "Parallax typed link source is not a RabbitMQ producer or consumer"
  let targetRole ← context (messagingRole parse target)
    "Parallax typed link target is not a RabbitMQ producer or consumer"
  ensure (decide (sourceRole = .consumer) && decide (targetRole = .producer))
    "Parallax typed link must point from a RabbitMQ consumer to a producer"
  let sourceMessageId ← context (attributeString parse source "messaging.message.id")
    "Parallax typed link source has no message identity"
  let targetMessageId ← context (attributeString parse target "messaging.message.id")
    "Parallax typed link target has no message identity"
  ensure (!trimIsEmpty sourceMessageId && !trimIsEmpty targetMessageId &&
      decide (sourceMessageId = targetMessageId))
    "Parallax typed link message identities do not match"

/-- `as_object` -/
def asObject : Json → Option Members
  | .object members => some members
  | _ => none

/-- `get(key).and_then(Value::as_str)` -/
def getString (members : Members) (key : String) : Option Text :=
  match Json.get members key with
  | some (.text value) => some value
  | _ => none

/-- `validate_link_attributes`. -/
def validateLinkAttributes (link : Members) : Except String Json := do
  let _ ← context (Json.get link "attributes") "Parallax typed link is missing attributes"
  let raw ← context (getString link "attributes")
    "Parallax typed link attributes are not a JSON string"
  ensure (decide ((utf8 raw).length ≤ maxLinkAttributesBytes))
    "Parallax typed link attributes exceed the bounded size"
  let parsed ← context (parse raw) "Parallax typed link attributes are invalid JSON"
  ensure (asObject parsed).isSome "Parallax typed link attributes are not an object"
  return parsed

/-- What `validate_typed_links` asks of one link by itself. -/
def resolveLink (nodes : List SpanNode) (index : SpanIndex) (source : Nat) (node : SpanNode)
    (link : Json) : Except String SpanLink := do
  let link ← context (asObject link) "Parallax typed link is not an object"
  let traceId ← context (getString link "traceId") "Parallax typed link is missing traceId"
  ensure (isTraceId traceId) "Parallax typed link has an invalid traceId"
  let spanId ← context (getString link "spanId") "Parallax typed link is missing spanId"
  ensure (isSpanId spanId) "Parallax typed link has an invalid spanId"
  let attributes ← validateLinkAttributes parse link
  let target ← context (index.lookup (traceId, spanId))
    "Parallax typed link target is not in the fetched graph"
  ensure (decide (source ≠ target)) "Parallax typed link cannot point to its source span"
  -- `nodes[target]`
  let targetNode ← context nodes[target]? "index out of bounds"
  validateLinkSemantics parse node targetNode
  return ⟨source, target, attributes⟩

/-- `links`, `seen` and `total_links` of the loops. -/
structure LinkState where
  links : List SpanLink
  seen : List (Nat × Nat)
  total : Nat

/-- The loop over the links of a span. -/
def addLinks (nodes : List SpanNode) (index : SpanIndex) (source : Nat) (node : SpanNode) :
    List Json → LinkState → Except String LinkState
  | [], state => .ok state
  | link :: rest, state => do
    let link ← resolveLink parse nodes index source node link
    ensure (!state.seen.contains (link.source, link.target))
      "Parallax returned a duplicate typed link"
    addLinks nodes index source node rest
      { state with
        links := state.links ++ [link]
        seen := (link.source, link.target) :: state.seen }

/-- The loop over the spans, from a position on. -/
def linksFrom (nodes : List SpanNode) (index : SpanIndex) (source : Nat) :
    List SpanNode → LinkState → Except String LinkState
  | [], state => .ok state
  | node :: rest, state => do
    let rawLinks ← context node.typedLinks "Parallax span is missing typedLinks"
    ensure (decide (rawLinks.length ≤ maxTypedLinksPerSpan))
      "Parallax span has too many typed links"
    let total := state.total + rawLinks.length
    ensure (decide (total ≤ maxTotalTypedLinks))
      "commerce trace graph exceeds 8192 typed links"
    let state ← addLinks parse nodes index source node rawLinks { state with total := total }
    linksFrom nodes index (source + 1) rest state

/-- `validate_typed_links`. -/
def validateTypedLinks (nodes : List SpanNode) (index : SpanIndex) :
    Except String (List SpanLink) := do
  let state ← linksFrom parse nodes index 0 nodes ⟨[], [], 0⟩
  return state.links

end Links

/-! ## Connectivity -/

/-- The pushes of the loop over the parents, each from its list to its element. -/
def parentPushes (index : SpanIndex) (child : Nat) :
    List SpanNode → Except String (List (Nat × Nat))
  | [] => .ok []
  | node :: rest =>
    match node.parentSpanId with
    | none => parentPushes index (child + 1) rest
    | some parent => do
      let parent ← context (index.lookup (node.traceId, parent))
        "Parallax parentSpanId lookup failed"
      let pushes ← parentPushes index (child + 1) rest
      return (child, parent) :: (parent, child) :: pushes

/-- The pushes of the loop over the links. -/
def linkPushes (links : List SpanLink) : List (Nat × Nat) :=
  links.flatMap fun link => [(link.source, link.target), (link.target, link.source)]

/-- `adjacency`, which the pushes fill. -/
def adjacency (pushes : List (Nat × Nat)) : Graph Nat where
  nodes := pushes.map Prod.fst
  next := fun position => (pushes.filter fun push => decide (push.1 = position)).map Prod.snd
  closed := by
    intro position hposition
    have hnone : (pushes.filter fun push => decide (push.1 = position)) = [] := by
      refine List.filter_eq_nil_iff.mpr fun push hpush heq => hposition ?_
      rw [← of_decide_eq_true heq]
      exact List.mem_map_of_mem hpush
    rw [hnone]
    rfl

/-- `reachable`, after a search with a queue. -/
def reachable (pushes : List (Nat × Nat)) (roots : List Nat) : List Nat :=
  ((adjacency pushes).run .queue (fun state _ => state) roots [] ()).1

/-- `validate_causal_connectivity`. -/
def validateCausalConnectivity (anchor : Text) (nodes : List SpanNode) (index : SpanIndex)
    (roots : List Nat) (links : List SpanLink) : Except String Unit := do
  let anchorRoots := roots.filter fun root =>
    decide (nodes[root]?.map SpanNode.traceId = some anchor)
  ensure (decide (anchorRoots.length = 1))
    "commerce anchor trace does not have exactly one root"
  let pushes ← parentPushes index 0 nodes
  let reachable := reachable (pushes ++ linkPushes links) anchorRoots
  ensure (decide (reachable.length = nodes.length))
    ("commerce trace has disconnected causal spans (reachable " ++ toString reachable.length ++
      " of " ++ toString nodes.length ++ ")")

/-- The checks of `analyze_details` on the graph itself. -/
def verifyGraph (parse : Text → Option Json) (anchor : Text) (nodes : List SpanNode) :
    Except String Unit := do
  let index ← indexSpans nodes
  let roots ← validateParentTopology nodes index
  let links ← validateTypedLinks parse nodes index
  validateCausalConnectivity anchor nodes index roots links

/-! ## What it should accept -/

/-- The typed links of a span. -/
def SpanNode.links (node : SpanNode) : List Json := node.typedLinks.getD []

/-- The span that a link names. -/
def linkKey (link : Json) : Option SpanKey := do
  let members ← asObject link
  let traceId ← getString members "traceId"
  let spanId ← getString members "spanId"
  return (traceId, spanId)

/-- The bounds on the number of links. -/
structure LinksBounded (nodes : List SpanNode) : Prop where
  perSpan : ∀ node ∈ nodes, ∃ links, node.typedLinks = some links ∧
    links.length ≤ maxTypedLinksPerSpan
  total : (nodes.map fun node => node.links.length).sum ≤ maxTotalTypedLinks

/-- The edge from a parent to its child, within a trace. -/
def IsParent (nodes : List SpanNode) (parent child : SpanNode) : Prop :=
  parent ∈ nodes ∧ child ∈ nodes ∧ parent.traceId = child.traceId ∧
    child.parentSpanId = some parent.spanId

def IsRoot (nodes : List SpanNode) (traceId : Text) (root : SpanNode) : Prop :=
  root ∈ nodes ∧ root.traceId = traceId ∧ root.parentSpanId = none

/-- The edge of a typed link. -/
def IsLinked (nodes : List SpanNode) (source target : SpanNode) : Prop :=
  source ∈ nodes ∧ target ∈ nodes ∧ ∃ link ∈ source.links, linkKey link = some target.key

/-- Both kinds of edges, in both directions. -/
def Touches (nodes : List SpanNode) (a b : SpanNode) : Prop :=
  IsParent nodes a b ∨ IsParent nodes b a ∨ IsLinked nodes a b ∨ IsLinked nodes b a

/-- One span processes the message that the other sent. -/
structure Consumes (parse : Text → Option Json) (source target : SpanNode) : Prop where
  consumer : messagingRole parse source = some .consumer
  producer : messagingRole parse target = some .producer
  message : ∃ id, attributeString parse source "messaging.message.id" = some id ∧
    attributeString parse target "messaging.message.id" = some id ∧ trimIsEmpty id = false

/-- A link with well-formed ids and attributes, from a consumer to another span of the
graph that is its producer. -/
def WellFormedLink (parse : Text → Option Json) (nodes : List SpanNode) (source : SpanNode)
    (link : Json) : Prop :=
  ∃ members traceId spanId raw attributes, link = .object members ∧
    getString members "traceId" = some traceId ∧ isTraceId traceId = true ∧
    getString members "spanId" = some spanId ∧ isSpanId spanId = true ∧
    getString members "attributes" = some raw ∧
    (utf8 raw).length ≤ maxLinkAttributesBytes ∧ parse raw = some (.object attributes) ∧
    ∃ target ∈ nodes, target.key = (traceId, spanId) ∧ target ≠ source ∧
      Consumes parse source target

structure WellFormed (parse : Text → Option Json) (anchor : Text) (nodes : List SpanNode) :
    Prop where
  distinct : (nodes.map SpanNode.key).Nodup
  /-- One root in each trace, and its tree is the trace. -/
  trees : ∀ traceId ∈ nodes.map SpanNode.traceId, ∃ root,
    (∀ other, IsRoot nodes traceId other ↔ other = root) ∧
    ∀ node ∈ nodes, node.traceId = traceId → Relation.ReflTransGen (IsParent nodes) root node
  links : ∀ node ∈ nodes, ∀ link ∈ node.links, WellFormedLink parse nodes node link
  linkedOnce : (nodes.flatMap fun node =>
    node.links.map fun link => (node.key, linkKey link)).Nodup
  anchored : anchor ∈ nodes.map SpanNode.traceId
  connected : ∀ root node, IsRoot nodes anchor root → node ∈ nodes →
    Relation.ReflTransGen (Touches nodes) root node

/-- The same span, with its links in any order. -/
structure SameSpan (a b : SpanNode) : Prop where
  traceId : a.traceId = b.traceId
  spanId : a.spanId = b.spanId
  parentSpanId : a.parentSpanId = b.parentSpanId
  kind : a.kind = b.kind
  attributes : a.attributes = b.attributes
  listed : a.typedLinks.isSome = b.typedLinks.isSome
  links : a.links.Perm b.links

/-- The same spans, in any order. -/
inductive Reordered : List SpanNode → List SpanNode → Prop
  | nil : Reordered [] []
  | cons {a b : SpanNode} {as bs : List SpanNode} :
      SameSpan a b → Reordered as bs → Reordered (a :: as) (b :: bs)
  | swap (a b : SpanNode) (rest : List SpanNode) : Reordered (a :: b :: rest) (b :: a :: rest)
  | trans {as bs cs : List SpanNode} : Reordered as bs → Reordered bs cs → Reordered as cs

end CommercePlayground.Cli.TraceGraph
