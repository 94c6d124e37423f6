/-
# The topology graph of the fabric

`TopologyRegistry` and `TopologyGraph` of `akaalEngine/fabric/topology/graph.py`, with the nodes and
edges of `akaalEngine/fabric/topology/models.py`.  The registry keeps nodes and edges under their ids
and an index from what a node stands for to its id; a snapshot holds the nodes and the edges of one
tenant and answers whether a path leads from one node to another.

* `hasPath_eq_true_iff` : what a snapshot answers about paths;
* `Located.step` : nodes stay under their own ids, and edges between nodes of their tenant;
* `sound_along_iff` : the index is exact along a run precisely when no accepted update changes what a
  node stands for.

The registry is the one without a durability store; fingerprints of snapshots are left out.
-/
import Akaal.BreadthFirst
import Akaal.PythonText
import Akaal.PythonValue
import Akaal.TransitionRun

open PythonText TransitionRun

namespace FabricTopology

/-! ## Nodes and edges -/

/-- `TopologyNodeKind`. -/
inductive TopologyNodeKind where
  | environment
  | executionSite
  | resource
  | network
  | region
  | cluster
  | staging
  deriving DecidableEq

/-- The value of a kind. -/
def TopologyNodeKind.value : TopologyNodeKind → String
  | environment => "ENVIRONMENT"
  | executionSite => "EXECUTION_SITE"
  | resource => "RESOURCE"
  | network => "NETWORK"
  | region => "REGION"
  | cluster => "CLUSTER"
  | staging => "STAGING"

theorem TopologyNodeKind.value_injective : Function.Injective TopologyNodeKind.value := by
  intro a b h
  cases a <;> cases b <;> first | rfl | exact absurd h (by decide)

/-- `TopologyRelationshipKind`. -/
inductive TopologyRelationshipKind where
  | locatedIn
  | attachedTo
  | runsIn
  | canReach
  | connectedVia
  | hosts
  | partOf
  deriving DecidableEq

/-- The exceptions, with what they name. -/
inductive TopologyError where
  | validation (message : String)
  | provenance (message : String)
  | typeError (field : String)
  | crossTenant (id : String)
  | duplicateNodeIdentity (nodeId : String)
  | duplicateEdgeIdentity (topologyEdgeId : String)
  | registration (message : String)
  | unknownNode (nodeId : String)
  | unknownEdge (topologyEdgeId : String)
  deriving DecidableEq

/-- The fields of a node. -/
structure NodeFields where
  nodeId : String
  nodeKind : TopologyNodeKind
  refId : String
  tenantId : String
  workspaceId : Option String := none
  displayName : String := ""
  provenanceSource : String := "UNKNOWN"
  observedAt : String
  generation : ℤ := 1
  stale : Bool := false
  attributes : PyDict String := PyDict.empty

/-- The key that says what a node stands for. -/
abbrev NativeKey := String × String × String

/-- `native_key`. -/
def NodeFields.nativeKey (fields : NodeFields) : NativeKey :=
  (fields.tenantId, fields.nodeKind.value, fields.refId)

/-- `TopologyNode`: fields that pass the checks of the constructor. -/
structure TopologyNode extends NodeFields where
  nodeId_ne : strip nodeId ≠ ""
  refId_ne : strip refId ≠ ""
  tenantId_ne : strip tenantId ≠ ""
  generation_pos : 1 ≤ generation
  provenance_ne : strip provenanceSource ≠ ""

/-- The exception for a missing provenance. -/
def provenanceError : TopologyError :=
  .provenance ("Topology provenance_source must be a non-empty string; unknown provenance " ++
    "must be explicitly declared as 'UNKNOWN', never omitted.")

/-- `TopologyNode(...)`. -/
def TopologyNode.new (fields : NodeFields) : Except TopologyError TopologyNode :=
  if hnode : strip fields.nodeId = "" then
    .error (.validation "TopologyNode.node_id must be non-empty.")
  else if href : strip fields.refId = "" then
    .error (.validation "TopologyNode.ref_id must be non-empty.")
  else if htenant : strip fields.tenantId = "" then
    .error (.validation "TopologyNode.tenant_id must be non-empty.")
  else if hgeneration : fields.generation < 1 then
    .error (.validation "TopologyNode.generation must be >= 1.")
  else if hprovenance : strip fields.provenanceSource = "" then .error provenanceError
  else .ok ⟨fields, hnode, href, htenant, not_lt.mp hgeneration, hprovenance⟩

theorem TopologyNode.fields_of_new {fields : NodeFields} {node : TopologyNode}
    (h : TopologyNode.new fields = .ok node) : node.toNodeFields = fields := by
  rw [TopologyNode.new] at h
  split_ifs at h
  rw [← Except.ok.inj h]

/-- The fields of an edge. -/
structure EdgeFields where
  topologyEdgeId : String
  sourceNodeId : String
  targetNodeId : String
  relationshipKind : TopologyRelationshipKind
  tenantId : String
  connectivityEdgeRef : Option String := none
  provenanceSource : String := "UNKNOWN"
  observedAt : String
  generation : ℤ := 1
  stale : Bool := false

/-- `TopologyEdge`: fields that pass the checks of the constructor. -/
structure TopologyEdge extends EdgeFields where
  topologyEdgeId_ne : strip topologyEdgeId ≠ ""
  ends_ne : sourceNodeId ≠ "" ∧ targetNodeId ≠ ""
  no_loop : sourceNodeId ≠ targetNodeId
  tenantId_ne : strip tenantId ≠ ""
  generation_pos : 1 ≤ generation
  provenance_ne : strip provenanceSource ≠ ""

/-- The edge that `mark_edge_stale` puts in the place of an edge. -/
def TopologyEdge.markedStale (edge : TopologyEdge) : TopologyEdge where
  toEdgeFields := { edge.toEdgeFields with generation := edge.generation + 1, stale := true }
  topologyEdgeId_ne := edge.topologyEdgeId_ne
  ends_ne := edge.ends_ne
  no_loop := edge.no_loop
  tenantId_ne := edge.tenantId_ne
  generation_pos := le_trans edge.generation_pos (Int.le_add_one le_rfl)
  provenance_ne := edge.provenance_ne

/-! ## Snapshots -/

/-- `TopologyGraph`. -/
structure TopologyGraph where
  tenantId : String
  nodes : PyDict TopologyNode
  edges : List TopologyEdge

namespace TopologyGraph

/-- `TopologyGraph(...)`. -/
def new (tenantId : String) (nodes : List TopologyNode) (edges : List TopologyEdge) :
    TopologyGraph :=
  ⟨tenantId, nodes.foldl (fun d n => d.set n.nodeId n) PyDict.empty, edges⟩

variable (g : TopologyGraph)

/-- `self._adjacency.get(node_id, ())`. -/
def adjacency (nodeId : String) : List TopologyEdge :=
  g.edges.filter fun edge => edge.sourceNodeId = nodeId

/-- The nodes at the ends of the edges that are followed. -/
def successors (includeStale : Bool) (nodeId : String) : List String :=
  ((g.adjacency nodeId).filter fun edge => includeStale || !edge.stale).map fun edge =>
    edge.targetNodeId

/-- `has_path`. -/
def hasPath (sourceNodeId targetNodeId : String) (includeStale : Bool) : Bool :=
  if (g.nodes.get? sourceNodeId).isNone || (g.nodes.get? targetNodeId).isNone then false
  else if sourceNodeId = targetNodeId then true
  else BreadthFirst.search (g.successors includeStale) targetNodeId (g.edges.length + 2)
    [sourceNodeId] [sourceNodeId]

end TopologyGraph

/-! ## The registry -/

/-- `TopologyRegistry`. -/
structure TopologyRegistry where
  nodesById : PyDict TopologyNode
  nodesByNativeKey : NativeKey → Option String
  edgesById : PyDict TopologyEdge

/-- The arguments of `update_node` that change fields; its first two parameters take `node_id` and
`tenant_id` away from them. -/
structure NodeChanges where
  nodeKind : Option TopologyNodeKind := none
  refId : Option String := none
  workspaceId : Option (Option String) := none
  displayName : Option String := none
  provenanceSource : Option String := none
  observedAt : Option String := none
  generation : Option ℤ := none
  stale : Option Bool := none
  attributes : Option (PyDict String) := none
  /-- An argument that is no field of a node. -/
  unknownField : Option String := none

/-- The payload of an update: the changes over the fields, and the next generation. -/
def NodeChanges.apply (changes : NodeChanges) (existing : NodeFields) : NodeFields where
  nodeId := existing.nodeId
  nodeKind := changes.nodeKind.getD existing.nodeKind
  refId := changes.refId.getD existing.refId
  tenantId := existing.tenantId
  workspaceId := changes.workspaceId.getD existing.workspaceId
  displayName := changes.displayName.getD existing.displayName
  provenanceSource := changes.provenanceSource.getD existing.provenanceSource
  observedAt := changes.observedAt.getD existing.observedAt
  -- the generation among the changes is overwritten
  generation := existing.generation + 1
  stale := changes.stale.getD existing.stale
  attributes := changes.attributes.getD existing.attributes

namespace TopologyRegistry

/-- `TopologyRegistry()`. -/
def new : TopologyRegistry := ⟨PyDict.empty, fun _ => none, PyDict.empty⟩

variable (s : TopologyRegistry)

/-- `register_node`. -/
def registerNode (node : TopologyNode) : Except TopologyError TopologyRegistry :=
  let nativeKey := node.nativeKey
  let stored : TopologyRegistry := { s with
    nodesById := s.nodesById.set node.nodeId node
    nodesByNativeKey := Function.update s.nodesByNativeKey nativeKey (some node.nodeId) }
  let registered : Except TopologyError TopologyRegistry :=
    match s.nodesByNativeKey nativeKey with
    | some existingId =>
      if existingId ≠ node.nodeId then .error (.duplicateNodeIdentity node.nodeId)
      else .ok stored
    | none => .ok stored
  match s.nodesById.get? node.nodeId with
  | some existing =>
    if existing.tenantId ≠ node.tenantId then .error (.crossTenant node.nodeId)
    else if existing.nativeKey ≠ nativeKey then .error (.duplicateNodeIdentity node.nodeId)
    else registered
  | none => registered

/-- `update_node`; the index is not written. -/
def updateNode (nodeId tenantId : String) (changes : NodeChanges) :
    Except TopologyError TopologyRegistry :=
  match s.nodesById.get? nodeId with
  | none => .error (.unknownNode nodeId)
  | some existing =>
    if existing.tenantId ≠ tenantId then .error (.crossTenant nodeId)
    else
      match changes.unknownField with
      | some field => .error (.typeError field)
      | none => do
          let updated ← TopologyNode.new (changes.apply existing.toNodeFields)
          return { s with nodesById := s.nodesById.set nodeId updated }

/-- `mark_node_stale`. -/
def markNodeStale (nodeId tenantId : String) : Except TopologyError TopologyRegistry :=
  s.updateNode nodeId tenantId { stale := some true }

/-- `register_edge`. -/
def registerEdge (edge : TopologyEdge) : Except TopologyError TopologyRegistry :=
  let registered : Except TopologyError TopologyRegistry :=
    match s.nodesById.get? edge.sourceNodeId, s.nodesById.get? edge.targetNodeId with
    | some sourceNode, some targetNode =>
      if sourceNode.tenantId ≠ edge.tenantId ∨ targetNode.tenantId ≠ edge.tenantId then
        .error (.crossTenant edge.topologyEdgeId)
      else .ok { s with edgesById := s.edgesById.set edge.topologyEdgeId edge }
    | _, _ => .error (.registration ("TopologyEdge source_node_id and target_node_id must both " ++
        "already be registered nodes; a topology edge can never reference a node that does not " ++
        "exist."))
  match s.edgesById.get? edge.topologyEdgeId with
  | some existing =>
    if existing.tenantId ≠ edge.tenantId then .error (.crossTenant edge.topologyEdgeId)
    else if (existing.sourceNodeId, existing.targetNodeId, existing.relationshipKind) ≠
        (edge.sourceNodeId, edge.targetNodeId, edge.relationshipKind) then
      .error (.duplicateEdgeIdentity edge.topologyEdgeId)
    else registered
  | none => registered

/-- `mark_edge_stale`. -/
def markEdgeStale (topologyEdgeId tenantId : String) : Except TopologyError TopologyRegistry :=
  match s.edgesById.get? topologyEdgeId with
  | none => .error (.unknownEdge topologyEdgeId)
  | some existing =>
    if existing.tenantId ≠ tenantId then .error (.crossTenant topologyEdgeId)
    else .ok { s with edgesById := s.edgesById.set topologyEdgeId existing.markedStale }

/-- `snapshot`. -/
def snapshot (tenantId : String) : Except TopologyError TopologyGraph :=
  if strip tenantId = "" then
    .error (.registration "snapshot() requires a non-empty tenant_id.")
  else .ok (TopologyGraph.new tenantId
    ((s.nodesById.items.map Prod.snd).filter fun n => n.tenantId = tenantId)
    ((s.edgesById.items.map Prod.snd).filter fun e => e.tenantId = tenantId))

/-! ### What the calls do -/

variable {s} {s' : TopologyRegistry}

/-- A node that is registered stands for what a node of its id stood for, and for what no other id is
indexed under. -/
theorem registerNode_ok {node : TopologyNode} (h : s.registerNode node = .ok s') :
    (∀ existing, s.nodesById.get? node.nodeId = some existing →
      existing.tenantId = node.tenantId ∧ existing.nativeKey = node.nativeKey) ∧
    (∀ id, s.nodesByNativeKey node.nativeKey = some id → id = node.nodeId) ∧
    s' = { s with
      nodesById := s.nodesById.set node.nodeId node
      nodesByNativeKey :=
        Function.update s.nodesByNativeKey node.nativeKey (some node.nodeId) } := by
  rw [registerNode] at h
  have hstored : ∀ {r : Except TopologyError TopologyRegistry} {stored : TopologyRegistry},
      (r = match s.nodesByNativeKey node.nativeKey with
        | some existingId =>
          if existingId ≠ node.nodeId then .error (.duplicateNodeIdentity node.nodeId)
          else .ok stored
        | none => .ok stored) → r = .ok s' →
      (∀ id, s.nodesByNativeKey node.nativeKey = some id → id = node.nodeId) ∧ s' = stored := by
    intro r stored hr hok
    rw [hr] at hok
    cases hindex : s.nodesByNativeKey node.nativeKey with
    | none =>
      rw [hindex] at hok
      refine ⟨fun id hid => ?_, (Except.ok.inj hok).symm⟩
      cases hid
    | some existingId =>
      rw [hindex] at hok
      simp only at hok
      split_ifs at hok with hid
      refine ⟨fun id h => ?_, (Except.ok.inj hok).symm⟩
      rw [← Option.some.inj h]
      exact not_not.mp hid
  cases hexisting : s.nodesById.get? node.nodeId with
  | none =>
    rw [hexisting] at h
    refine ⟨fun existing hex => ?_, hstored rfl h⟩
    cases hex
  | some existing =>
    rw [hexisting] at h
    simp only at h
    split_ifs at h with htenant hkey
    refine ⟨fun found hfound => ?_, hstored rfl h⟩
    rw [← Option.some.inj hfound]
    exact ⟨not_not.mp htenant, not_not.mp hkey⟩

/-- When an update is accepted, and what it does. -/
theorem updateNode_eq_ok_iff {nodeId tenantId : String} {changes : NodeChanges} :
    s.updateNode nodeId tenantId changes = .ok s' ↔
      ∃ existing updated, s.nodesById.get? nodeId = some existing ∧
        existing.tenantId = tenantId ∧ changes.unknownField = none ∧
        TopologyNode.new (changes.apply existing.toNodeFields) = .ok updated ∧
        s' = { s with nodesById := s.nodesById.set nodeId updated } := by
  rw [updateNode]
  cases hexisting : s.nodesById.get? nodeId with
  | none =>
    constructor
    · intro h
      cases h
    · rintro ⟨existing, updated, hfound, -⟩
      cases hfound
  | some existing =>
    simp only
    by_cases htenant : existing.tenantId = tenantId
    · rw [if_neg (not_not_intro htenant)]
      cases hunknown : changes.unknownField with
      | some field =>
        constructor
        · intro h
          cases h
        · rintro ⟨found, updated, -, -, hnone, -⟩
          cases hnone
      | none =>
        cases hnew : TopologyNode.new (changes.apply existing.toNodeFields) with
        | error e =>
          constructor
          · intro h
            cases h
          · rintro ⟨found, updated, hfound, -, -, hupdated, -⟩
            rw [← Option.some.inj hfound, hnew] at hupdated
            cases hupdated
        | ok updated =>
          constructor
          · intro h
            exact ⟨existing, updated, rfl, htenant, rfl, hnew, (Except.ok.inj h).symm⟩
          · rintro ⟨found, made, hfound, -, -, hmade, rfl⟩
            rw [← Option.some.inj hfound, hnew] at hmade
            rw [← Except.ok.inj hmade]
            rfl
    · rw [if_pos htenant]
      constructor
      · intro h
        cases h
      · rintro ⟨found, updated, hfound, hsame, -⟩
        rw [← Option.some.inj hfound] at hsame
        exact absurd hsame htenant

/-- An edge that is registered joins registered nodes of its tenant. -/
theorem registerEdge_ok {edge : TopologyEdge} (h : s.registerEdge edge = .ok s') :
    ∃ sourceNode targetNode, s.nodesById.get? edge.sourceNodeId = some sourceNode ∧
      s.nodesById.get? edge.targetNodeId = some targetNode ∧
      sourceNode.tenantId = edge.tenantId ∧ targetNode.tenantId = edge.tenantId ∧
      s' = { s with edgesById := s.edgesById.set edge.topologyEdgeId edge } := by
  rw [registerEdge] at h
  have hstored : ∀ {r : Except TopologyError TopologyRegistry} {e : TopologyError},
      (r = match s.nodesById.get? edge.sourceNodeId, s.nodesById.get? edge.targetNodeId with
        | some sourceNode, some targetNode =>
          if sourceNode.tenantId ≠ edge.tenantId ∨ targetNode.tenantId ≠ edge.tenantId then
            .error (.crossTenant edge.topologyEdgeId)
          else .ok { s with edgesById := s.edgesById.set edge.topologyEdgeId edge }
        | _, _ => .error e) → r = .ok s' →
      ∃ sourceNode targetNode, s.nodesById.get? edge.sourceNodeId = some sourceNode ∧
        s.nodesById.get? edge.targetNodeId = some targetNode ∧
        sourceNode.tenantId = edge.tenantId ∧ targetNode.tenantId = edge.tenantId ∧
        s' = { s with edgesById := s.edgesById.set edge.topologyEdgeId edge } := by
    intro r e hr hok
    rw [hr] at hok
    cases hsource : s.nodesById.get? edge.sourceNodeId with
    | none =>
      rw [hsource] at hok
      cases hok
    | some sourceNode =>
      cases htarget : s.nodesById.get? edge.targetNodeId with
      | none =>
        rw [hsource, htarget] at hok
        cases hok
      | some targetNode =>
        rw [hsource, htarget] at hok
        simp only at hok
        split_ifs at hok with htenants
        rw [not_or, not_not, not_not] at htenants
        exact ⟨sourceNode, targetNode, rfl, rfl, htenants.1, htenants.2, (Except.ok.inj hok).symm⟩
  cases hexisting : s.edgesById.get? edge.topologyEdgeId with
  | none =>
    rw [hexisting] at h
    exact hstored rfl h
  | some existing =>
    rw [hexisting] at h
    simp only at h
    split_ifs at h
    exact hstored rfl h

/-- An edge that is marked stale keeps its ends and its tenant. -/
theorem markEdgeStale_ok {topologyEdgeId tenantId : String}
    (h : s.markEdgeStale topologyEdgeId tenantId = .ok s') :
    ∃ existing, s.edgesById.get? topologyEdgeId = some existing ∧
      s' = { s with edgesById := s.edgesById.set topologyEdgeId existing.markedStale } := by
  rw [markEdgeStale] at h
  cases hexisting : s.edgesById.get? topologyEdgeId with
  | none =>
    rw [hexisting] at h
    cases h
  | some existing =>
    rw [hexisting] at h
    simp only at h
    split_ifs at h
    exact ⟨existing, rfl, (Except.ok.inj h).symm⟩

end TopologyRegistry

/-! ## What a snapshot answers -/

namespace TopologyRegistry

variable {s : TopologyRegistry}

/-- An id is registered for a tenant. -/
def RegisteredFor (s : TopologyRegistry) (tenantId nodeId : String) : Prop :=
  ∃ node, s.nodesById.get? nodeId = some node ∧ node.tenantId = tenantId

/-- An edge of the tenant that is not stale leads from one id to the other. -/
def Joined (s : TopologyRegistry) (tenantId a b : String) : Prop :=
  ∃ id edge, s.edgesById.get? id = some edge ∧ edge.tenantId = tenantId ∧ edge.stale = false ∧
    edge.sourceNodeId = a ∧ edge.targetNodeId = b

/-- Every node is kept under its own id. -/
def UnderOwnIds (s : TopologyRegistry) : Prop :=
  ∀ id node, s.nodesById.get? id = some node → node.nodeId = id

/-- Every edge joins two registered nodes of its own tenant. -/
def EdgesJoin (s : TopologyRegistry) : Prop :=
  ∀ id edge, s.edgesById.get? id = some edge → s.RegisteredFor edge.tenantId edge.sourceNodeId ∧
    s.RegisteredFor edge.tenantId edge.targetNodeId

theorem isSome_get?_foldl_set (nodes : List TopologyNode) (d : PyDict TopologyNode) (id : String) :
    ((nodes.foldl (fun d n => d.set n.nodeId n) d).get? id).isSome ↔
      (d.get? id).isSome ∨ ∃ node ∈ nodes, node.nodeId = id := by
  induction nodes generalizing d with
  | nil => simp
  | cons node nodes ih =>
    rw [List.foldl_cons, ih]
    by_cases hid : id = node.nodeId
    · rw [hid, PyDict.get?_set]
      constructor
      · intro _
        exact Or.inr ⟨node, List.mem_cons_self, rfl⟩
      · intro _
        exact Or.inl rfl
    · rw [PyDict.get?_set_of_ne _ _ hid]
      refine or_congr_right ?_
      constructor
      · rintro ⟨n, hn, hnid⟩
        exact ⟨n, List.mem_cons_of_mem _ hn, hnid⟩
      · rintro ⟨n, hn, hnid⟩
        rcases List.mem_cons.mp hn with rfl | hn
        · exact absurd hnid.symm hid
        · exact ⟨n, hn, hnid⟩

theorem mem_filter_values {α : Type*} (d : PyDict α) (test : α → Bool) (value : α) :
    value ∈ (d.items.map Prod.snd).filter test ↔
      (∃ key, d.get? key = some value) ∧ test value = true := by
  rw [List.mem_filter]
  refine and_congr_left fun _ => ?_
  rw [List.mem_map]
  constructor
  · rintro ⟨⟨key, v⟩, hmem, rfl⟩
    exact ⟨key, (PyDict.mem_items_iff d).mp hmem⟩
  · rintro ⟨key, hkey⟩
    exact ⟨(key, value), (PyDict.mem_items_iff d).mpr hkey, rfl⟩

variable {tenantId : String} {g : TopologyGraph}

theorem isSome_nodes_of_snapshot (hown : s.UnderOwnIds) (h : s.snapshot tenantId = .ok g)
    (id : String) : (g.nodes.get? id).isSome ↔ s.RegisteredFor tenantId id := by
  rw [snapshot] at h
  split_ifs at h
  rw [← Except.ok.inj h]
  show ((List.foldl _ PyDict.empty _).get? id).isSome ↔ _
  rw [isSome_get?_foldl_set]
  constructor
  · rintro (hempty | ⟨node, hnode, hid⟩)
    · cases hempty
    · obtain ⟨⟨key, hkey⟩, htenant⟩ := (mem_filter_values _ _ _).mp hnode
      rw [← hid, hown key node hkey]
      exact ⟨node, hkey, of_decide_eq_true htenant⟩
  · rintro ⟨node, hnode, htenant⟩
    exact Or.inr ⟨node, (mem_filter_values _ _ _).mpr ⟨⟨id, hnode⟩, decide_eq_true htenant⟩,
      hown id node hnode⟩

theorem step_successors_of_snapshot (h : s.snapshot tenantId = .ok g) :
    BreadthFirst.Step (g.successors false) = s.Joined tenantId := by
  rw [snapshot] at h
  split_ifs at h
  rw [← Except.ok.inj h]
  funext a b
  refine propext ?_
  show b ∈ TopologyGraph.successors _ false a ↔ _
  rw [TopologyGraph.successors, List.mem_map]
  constructor
  · rintro ⟨edge, hedge, hb⟩
    obtain ⟨hedge, hstale⟩ := List.mem_filter.mp hedge
    obtain ⟨hedge, ha⟩ := List.mem_filter.mp hedge
    obtain ⟨⟨id, hid⟩, htenant⟩ := (mem_filter_values _ _ _).mp hedge
    rw [Bool.false_or, Bool.not_eq_true'] at hstale
    exact ⟨id, edge, hid, of_decide_eq_true htenant, hstale, of_decide_eq_true ha, hb⟩
  · rintro ⟨id, edge, hid, htenant, hstale, ha, hb⟩
    refine ⟨edge, List.mem_filter.mpr ⟨List.mem_filter.mpr ⟨?_, decide_eq_true ha⟩, ?_⟩, hb⟩
    · exact (mem_filter_values _ _ _).mpr ⟨⟨id, hid⟩, decide_eq_true htenant⟩
    · rw [hstale]
      rfl

/-- **What a snapshot answers.**  In a snapshot of a tenant there is a path between two ids precisely
when both are registered for the tenant and a chain of its edges that are not stale joins them. -/
theorem hasPath_eq_true_iff (hown : s.UnderOwnIds) (h : s.snapshot tenantId = .ok g)
    (a b : String) :
    g.hasPath a b false = true ↔ s.RegisteredFor tenantId a ∧ s.RegisteredFor tenantId b ∧
      Relation.ReflTransGen (s.Joined tenantId) a b := by
  rw [← isSome_nodes_of_snapshot hown h a, ← isSome_nodes_of_snapshot hown h b,
    ← step_successors_of_snapshot h, TopologyGraph.hasPath]
  cases ha : g.nodes.get? a with
  | none => simp
  | some source =>
    cases hb : g.nodes.get? b with
    | none => simp
    | some target =>
      rw [if_neg (by simp)]
      by_cases hab : a = b
      · rw [if_pos hab, hab]
        exact ⟨fun _ => ⟨rfl, rfl, Relation.ReflTransGen.refl⟩, fun _ => rfl⟩
      · rw [if_neg hab]
        have hvertices : ∀ v, ∀ n ∈ g.successors false v,
            n ∈ g.edges.map fun edge => edge.targetNodeId := by
          intro v n hn
          obtain ⟨edge, hedge, hn⟩ := List.mem_map.mp hn
          exact List.mem_map.mpr
            ⟨edge, List.mem_of_mem_filter (List.mem_of_mem_filter hedge), hn⟩
        have hfuel : (g.edges.map fun edge => edge.targetNodeId).length + 1 <
            g.edges.length + 2 := by
          rw [List.length_map]
          omega
        rw [BreadthFirst.search_eq_true_iff hvertices hab hfuel]
        exact ⟨fun hpath => ⟨rfl, rfl, hpath⟩, fun h => h.2.2⟩

end TopologyRegistry

/-! ## Runs -/

/-- The calls that change a registry. -/
inductive Call where
  | registerNode (node : TopologyNode)
  | updateNode (nodeId tenantId : String) (changes : NodeChanges)
  | markNodeStale (nodeId tenantId : String)
  | registerEdge (edge : TopologyEdge)
  | markEdgeStale (topologyEdgeId tenantId : String)

/-- The update that a call makes. -/
def Call.update? : Call → Option (String × String × NodeChanges)
  | .updateNode nodeId tenantId changes => some (nodeId, tenantId, changes)
  | .markNodeStale nodeId tenantId => some (nodeId, tenantId, { stale := some true })
  | _ => none

namespace TopologyRegistry

/-- The outcome of a call. -/
def perform (s : TopologyRegistry) : Call → Except TopologyError TopologyRegistry
  | .registerNode node => s.registerNode node
  | .updateNode nodeId tenantId changes => s.updateNode nodeId tenantId changes
  | .markNodeStale nodeId tenantId => s.markNodeStale nodeId tenantId
  | .registerEdge edge => s.registerEdge edge
  | .markEdgeStale topologyEdgeId tenantId => s.markEdgeStale topologyEdgeId tenantId

/-- A call on the registry; one that raises leaves it unchanged. -/
def step (s : TopologyRegistry) (call : Call) : Option TopologyRegistry :=
  match s.perform call with
  | .ok s' => some s'
  | .error _ => some s

variable {existing node updated : TopologyNode} {nodeId : String} {s s' : TopologyRegistry}

theorem step_cases {call : Call} (h : s.step call = some s') :
    (s' = s ∧ ∃ e, s.perform call = .error e) ∨ s.perform call = .ok s' := by
  rw [step] at h
  cases hperform : s.perform call with
  | error e =>
    rw [hperform] at h
    exact Or.inl ⟨(Option.some.inj h).symm, e, rfl⟩
  | ok made =>
    rw [hperform] at h
    rw [← Option.some.inj h]
    exact Or.inr rfl

/-- The call updates a registered node of the tenant it names, with known fields that make a node
again. -/
def Updates (s : TopologyRegistry) (call : Call) (nodeId : String)
    (existing updated : TopologyNode) : Prop :=
  ∃ tenantId changes, call.update? = some (nodeId, tenantId, changes) ∧
    s.nodesById.get? nodeId = some existing ∧ existing.tenantId = tenantId ∧
    changes.unknownField = none ∧ TopologyNode.new (changes.apply existing.toNodeFields) = .ok updated

theorem Updates.existing_eq {call : Call} (h : s.Updates call nodeId existing updated) :
    s.nodesById.get? nodeId = some existing := by
  obtain ⟨tenantId, changes, -, hexisting, -⟩ := h
  exact hexisting

theorem Updates.perform_eq_ok {call : Call} (h : s.Updates call nodeId existing updated) :
    s.perform call = .ok { s with nodesById := s.nodesById.set nodeId updated } := by
  obtain ⟨tenantId, changes, hcall, hexisting, htenant, hknown, hnew⟩ := h
  have hupdate := updateNode_eq_ok_iff.mpr ⟨existing, updated, hexisting, htenant, hknown, hnew, rfl⟩
  cases call with
  | updateNode id tenant given =>
    obtain ⟨rfl, rfl, rfl⟩ := Option.some.inj hcall
    exact hupdate
  | markNodeStale id tenant =>
    obtain ⟨rfl, rfl, rfl⟩ := Option.some.inj hcall
    exact hupdate
  | registerNode node => cases hcall
  | registerEdge edge => cases hcall
  | markEdgeStale id tenant => cases hcall

/-- A call updates one node, in one way. -/
theorem Updates.unique {call : Call} {nodeId' : String} {existing' updated' : TopologyNode}
    (h : s.Updates call nodeId existing updated) (h' : s.Updates call nodeId' existing' updated') :
    nodeId = nodeId' ∧ existing = existing' ∧ updated = updated' := by
  obtain ⟨tenantId, changes, hcall, hexisting, -, -, hnew⟩ := h
  obtain ⟨tenantId', changes', hcall', hexisting', -, -, hnew'⟩ := h'
  rw [hcall] at hcall'
  obtain ⟨rfl, rfl, rfl⟩ := Option.some.inj hcall'
  rw [hexisting] at hexisting'
  cases hexisting'
  rw [hnew] at hnew'
  exact ⟨rfl, rfl, Except.ok.inj hnew'⟩

/-- What an accepted call does to the nodes, the index and the edges. -/
inductive Effect (s : TopologyRegistry) (call : Call) : TopologyRegistry → Prop
  /-- A node is stored and indexed; it replaces none, or one that stood for the same. -/
  | registered {node : TopologyNode} (hcall : call.update? = none)
      (hsame : ∀ existing, s.nodesById.get? node.nodeId = some existing →
        existing.tenantId = node.tenantId ∧ existing.nativeKey = node.nativeKey)
      (hindex : ∀ id, s.nodesByNativeKey node.nativeKey = some id → id = node.nodeId) :
      Effect s call { s with
        nodesById := s.nodesById.set node.nodeId node
        nodesByNativeKey :=
          Function.update s.nodesByNativeKey node.nativeKey (some node.nodeId) }
  /-- A node is replaced by one of its id and tenant. -/
  | replaced {nodeId : String} {existing updated : TopologyNode}
      (hupdates : s.Updates call nodeId existing updated) :
      Effect s call { s with nodesById := s.nodesById.set nodeId updated }
  /-- An edge is stored whose ends are registered for its tenant. -/
  | joined {id : String} {edge : TopologyEdge} (hcall : call.update? = none)
      (hsource : s.RegisteredFor edge.tenantId edge.sourceNodeId)
      (htarget : s.RegisteredFor edge.tenantId edge.targetNodeId) :
      Effect s call { s with edgesById := s.edgesById.set id edge }

theorem effect_of_updateNode {call : Call} {tenantId : String}
    {changes : NodeChanges} (hcall : call.update? = some (nodeId, tenantId, changes))
    (h : s.updateNode nodeId tenantId changes = .ok s') : s.Effect call s' := by
  obtain ⟨existing, updated, hexisting, htenant, hknown, hnew, rfl⟩ := updateNode_eq_ok_iff.mp h
  exact .replaced ⟨tenantId, changes, hcall, hexisting, htenant, hknown, hnew⟩

theorem perform_effect {call : Call} (hjoin : s.EdgesJoin)
    (h : s.perform call = .ok s') : s.Effect call s' := by
  cases call with
  | registerNode node =>
    obtain ⟨hsame, hindex, rfl⟩ := registerNode_ok h
    exact .registered rfl hsame hindex
  | updateNode nodeId tenantId changes => exact effect_of_updateNode rfl h
  | markNodeStale nodeId tenantId => exact effect_of_updateNode rfl h
  | registerEdge edge =>
    obtain ⟨sourceNode, targetNode, hsource, htarget, hs, ht, rfl⟩ := registerEdge_ok h
    exact .joined rfl ⟨sourceNode, hsource, hs⟩ ⟨targetNode, htarget, ht⟩
  | markEdgeStale topologyEdgeId tenantId =>
    obtain ⟨existing, hexisting, rfl⟩ := markEdgeStale_ok h
    obtain ⟨hsource, htarget⟩ := hjoin topologyEdgeId existing hexisting
    exact .joined rfl hsource htarget

/-! ### Ids and edges -/

/-- Nodes are kept under their own ids, and edges join registered nodes of their tenant. -/
structure Located (s : TopologyRegistry) : Prop where
  ownIds : s.UnderOwnIds
  edgesJoin : s.EdgesJoin

/-- A node stored in the place of none, or of one of its tenant, loses no registered id. -/
theorem RegisteredFor.set_node {index : NativeKey → Option String} {tenantId id : String}
    (hsame : ∀ existing, s.nodesById.get? nodeId = some existing →
      existing.tenantId = node.tenantId)
    (h : s.RegisteredFor tenantId id) :
    RegisteredFor ⟨s.nodesById.set nodeId node, index, s.edgesById⟩ tenantId id := by
  obtain ⟨existing, hexisting, htenant⟩ := h
  by_cases hid : id = nodeId
  · subst hid
    exact ⟨node, PyDict.get?_set _ _ _, by rw [← hsame existing hexisting, htenant]⟩
  · exact ⟨existing, by rw [← hexisting]; exact PyDict.get?_set_of_ne _ _ hid, htenant⟩

/-- Storing a node of its own id keeps what is located. -/
theorem Located.set_node (hs : s.Located)
    (hown : node.nodeId = nodeId) (index : NativeKey → Option String)
    (hsame : ∀ existing, s.nodesById.get? nodeId = some existing →
      existing.tenantId = node.tenantId) :
    Located ⟨s.nodesById.set nodeId node, index, s.edgesById⟩ := by
  refine ⟨fun id found hfound => ?_, fun id edge hedge => ?_⟩
  · by_cases hid : id = nodeId
    · subst hid
      rw [PyDict.get?_set] at hfound
      rw [← Option.some.inj hfound, hown]
    · rw [PyDict.get?_set_of_ne _ _ hid] at hfound
      exact hs.ownIds id found hfound
  · obtain ⟨hsource, htarget⟩ := hs.edgesJoin id edge hedge
    exact ⟨hsource.set_node hsame, htarget.set_node hsame⟩

/-- **Nodes and edges stay in place.**  Every call keeps nodes under their own ids, and edges between
registered nodes of their tenant. -/
theorem Located.step {call : Call} (hs : s.Located) (h : s.step call = some s') : s'.Located := by
  rcases step_cases h with ⟨rfl, -⟩ | hok
  · exact hs
  · cases perform_effect hs.edgesJoin hok with
    | registered hcall hsame hindex =>
      exact hs.set_node rfl _ fun existing hexisting => (hsame existing hexisting).1
    | @replaced nodeId existing updated hupdates =>
      obtain ⟨tenantId, changes, -, hexisting, -, -, hnew⟩ := hupdates
      have hfields := TopologyNode.fields_of_new hnew
      refine hs.set_node ?_ _ fun found hfound => ?_
      · rw [hfields]
        exact hs.ownIds nodeId existing hexisting
      · rw [hexisting] at hfound
        rw [← Option.some.inj hfound, hfields]
        rfl
    | @joined id edge hcall hsource htarget =>
      refine ⟨hs.ownIds, fun other found hfound => ?_⟩
      by_cases hother : other = id
      · subst hother
        rw [PyDict.get?_set] at hfound
        rw [← Option.some.inj hfound]
        exact ⟨hsource, htarget⟩
      · rw [PyDict.get?_set_of_ne _ _ hother] at hfound
        exact hs.edgesJoin other found hfound

/-! ### The index -/

/-- The index maps exactly the native keys of the registered nodes, each to the id of its node. -/
def IndexExact (s : TopologyRegistry) : Prop :=
  ∀ key id, s.nodesByNativeKey key = some id ↔
    ∃ node, s.nodesById.get? id = some node ∧ node.nativeKey = key

/-- Registering a node keeps the index exact. -/
theorem IndexExact.registered (hs : s.IndexExact)
    (hsame : ∀ existing, s.nodesById.get? node.nodeId = some existing →
      existing.nativeKey = node.nativeKey)
    (hindex : ∀ id, s.nodesByNativeKey node.nativeKey = some id → id = node.nodeId) :
    IndexExact ⟨s.nodesById.set node.nodeId node,
      Function.update s.nodesByNativeKey node.nativeKey (some node.nodeId), s.edgesById⟩ := by
  intro key id
  show Function.update _ _ _ key = _ ↔ ∃ found, (s.nodesById.set _ _).get? id = _ ∧ _
  by_cases hid : id = node.nodeId
  · subst hid
    rw [PyDict.get?_set]
    by_cases hkey : key = node.nativeKey
    · subst hkey
      rw [Function.update_self]
      exact ⟨fun _ => ⟨node, rfl, rfl⟩, fun _ => rfl⟩
    · rw [Function.update_of_ne hkey, hs key node.nodeId]
      constructor
      · rintro ⟨existing, hexisting, hold⟩
        exact absurd (hold.symm.trans (hsame existing hexisting)) hkey
      · rintro ⟨found, hfound, hnew⟩
        rw [← Option.some.inj hfound] at hnew
        exact absurd hnew.symm hkey
  · rw [PyDict.get?_set_of_ne _ _ hid, ← hs key id]
    by_cases hkey : key = node.nativeKey
    · subst hkey
      rw [Function.update_self]
      constructor
      · intro h
        exact absurd (Option.some.inj h).symm hid
      · intro h
        exact absurd (hindex id h) hid
    · rw [Function.update_of_ne hkey]

/-- Replacing a node keeps the index exact precisely when the new node stands for what the old one
stood for. -/
theorem indexExact_replaced_iff (hs : s.IndexExact)
    (hexisting : s.nodesById.get? nodeId = some existing) :
    IndexExact ⟨s.nodesById.set nodeId updated, s.nodesByNativeKey, s.edgesById⟩ ↔
      updated.nativeKey = existing.nativeKey := by
  constructor
  · intro h
    -- the old key is still indexed under the id, which holds the new node
    have hold : s.nodesByNativeKey existing.nativeKey = some nodeId :=
      (hs _ _).mpr ⟨existing, hexisting, rfl⟩
    obtain ⟨node, hnode, hkey⟩ := (h _ _).mp hold
    rw [PyDict.get?_set] at hnode
    rw [Option.some.inj hnode, hkey]
  · intro hsame key id
    show s.nodesByNativeKey key = some id ↔ ∃ found, (s.nodesById.set _ _).get? id = _ ∧ _
    rw [hs key id]
    by_cases hid : id = nodeId
    · subst hid
      rw [PyDict.get?_set, hexisting]
      constructor
      · rintro ⟨node, hnode, hkey⟩
        exact ⟨updated, rfl, by rw [hsame, Option.some.inj hnode, hkey]⟩
      · rintro ⟨node, hnode, hkey⟩
        exact ⟨existing, rfl, by rw [← hsame, Option.some.inj hnode, hkey]⟩
    · rw [PyDict.get?_set_of_ne _ _ hid]

/-- What the index, the edges and the snapshots of a registry should be. -/
structure Sound (s : TopologyRegistry) : Prop where
  indexExact : s.IndexExact
  distinct : ∀ id id' node node', s.nodesById.get? id = some node →
    s.nodesById.get? id' = some node' → node.nativeKey = node'.nativeKey → id = id'
  edgesJoin : s.EdgesJoin
  paths : ∀ tenantId g, s.snapshot tenantId = .ok g → ∀ a b, g.hasPath a b false = true ↔
    s.RegisteredFor tenantId a ∧ s.RegisteredFor tenantId b ∧
      Relation.ReflTransGen (s.Joined tenantId) a b

theorem Located.sound_iff (hs : s.Located) : s.Sound ↔ s.IndexExact := by
  constructor
  · intro h
    exact h.indexExact
  · intro h
    refine ⟨h, fun id id' node node' hnode hnode' hkey => ?_, hs.edgesJoin,
      fun tenantId g hg => hasPath_eq_true_iff hs.ownIds hg⟩
    have hindexed := (h _ _).mpr ⟨node, hnode, rfl⟩
    rw [hkey, (h _ _).mpr ⟨node', hnode', rfl⟩] at hindexed
    exact (Option.some.inj hindexed).symm

/-- The call is no update that is accepted and gives its node another kind or reference. -/
def KeepsNativeKey (s : TopologyRegistry) (call : Call) : Prop :=
  ∀ nodeId tenantId changes existing, call.update? = some (nodeId, tenantId, changes) →
    s.nodesById.get? nodeId = some existing → existing.tenantId = tenantId →
    changes.unknownField = none → (TopologyNode.new (changes.apply existing.toNodeFields)).isOk →
    (∀ kind, changes.nodeKind = some kind → kind = existing.nodeKind) ∧
      ∀ refId, changes.refId = some refId → refId = existing.refId

/-- Changes keep what a node stands for precisely when they keep its kind and its reference. -/
theorem nativeKey_apply_eq_iff (changes : NodeChanges) (existing : NodeFields) :
    (changes.apply existing).nativeKey = existing.nativeKey ↔
      (∀ kind, changes.nodeKind = some kind → kind = existing.nodeKind) ∧
        ∀ refId, changes.refId = some refId → refId = existing.refId := by
  show (existing.tenantId, (changes.nodeKind.getD existing.nodeKind).value,
    changes.refId.getD existing.refId) = (existing.tenantId, existing.nodeKind.value,
      existing.refId) ↔ _
  rw [Prod.mk.injEq, Prod.mk.injEq, TopologyNodeKind.value_injective.eq_iff]
  refine (and_iff_right rfl).trans (and_congr ?_ ?_)
  · cases changes.nodeKind with
    | none => simp
    | some kind => simp
  · cases changes.refId with
    | none => simp
    | some refId => simp

theorem keepsNativeKey_iff (s : TopologyRegistry) (call : Call) :
    s.KeepsNativeKey call ↔ ∀ nodeId existing updated, s.Updates call nodeId existing updated →
      updated.nativeKey = existing.nativeKey := by
  constructor
  · rintro h nodeId existing updated ⟨tenantId, changes, hcall, hexisting, htenant, hknown, hnew⟩
    rw [TopologyNode.fields_of_new hnew, nativeKey_apply_eq_iff]
    refine h nodeId tenantId changes existing hcall hexisting htenant hknown ?_
    rw [hnew]
    rfl
  · intro h nodeId tenantId changes existing hcall hexisting htenant hknown haccepted
    cases hnew : TopologyNode.new (changes.apply existing.toNodeFields) with
    | error e =>
      rw [hnew] at haccepted
      cases haccepted
    | ok updated =>
      rw [← nativeKey_apply_eq_iff, ← TopologyNode.fields_of_new hnew]
      exact h nodeId existing updated
        ⟨tenantId, changes, hcall, hexisting, htenant, hknown, hnew⟩

theorem indexExact_step_iff {call : Call} (hs : s.Located)
    (hexact : s.IndexExact) (h : s.step call = some s') :
    s'.IndexExact ↔ s.KeepsNativeKey call := by
  rw [keepsNativeKey_iff]
  rcases step_cases h with ⟨rfl, e, herror⟩ | hok
  · refine ⟨fun _ nodeId existing updated hupdates => ?_, fun _ => hexact⟩
    rw [hupdates.perform_eq_ok] at herror
    cases herror
  · cases perform_effect hs.edgesJoin hok with
    | registered hcall hsame hindex =>
      constructor
      · rintro - nodeId existing updated ⟨tenantId, changes, hupdate, -⟩
        rw [hcall] at hupdate
        cases hupdate
      · intro _
        exact hexact.registered (fun existing hexisting => (hsame existing hexisting).2) hindex
    | replaced hupdates =>
      rw [indexExact_replaced_iff hexact hupdates.existing_eq]
      constructor
      · intro hkey nodeId existing updated hother
        obtain ⟨rfl, rfl, rfl⟩ := hupdates.unique hother
        exact hkey
      · intro hkeeps
        exact hkeeps _ _ _ hupdates
    | joined hcall hsource htarget =>
      constructor
      · rintro - nodeId existing updated ⟨tenantId, changes, hupdate, -⟩
        rw [hcall] at hupdate
        cases hupdate
      · intro _
        exact hexact

theorem located_new : new.Located := by
  refine ⟨fun id node hnode => ?_, fun id edge hedge => ?_⟩
  · cases hnode
  · cases hedge

theorem indexExact_new : new.IndexExact := by
  intro key id
  constructor
  · intro h
    cases h
  · rintro ⟨node, hnode, -⟩
    cases hnode

/-- **When the index is exact.**  Along every sequence of calls on a registry, its index, edges and
snapshots are as they should be precisely when no accepted update changes what its node stands for. -/
theorem sound_along_iff (calls : List Call) :
    HoldsAlong step Sound new calls ↔ MeetsAlong step KeepsNativeKey new calls :=
  holdsAlong_iff_meetsAlong (I := Located) (fun _ _ _ hs hstep => hs.step hstep)
    (fun s call s' hs hsound hstep => by
      rw [(hs.step hstep).sound_iff]
      exact indexExact_step_iff hs hsound.indexExact hstep)
    located_new (located_new.sound_iff.mpr indexExact_new) calls

/-- A resource of a tenant. -/
def sampleNode : TopologyNode where
  nodeId := "node-1"
  nodeKind := .resource
  refId := "db-1"
  tenantId := "tenant-1"
  observedAt := "2024-01-01T00:00:00Z"
  nodeId_ne := by decide
  refId_ne := by decide
  tenantId_ne := by decide
  generation_pos := le_rfl
  provenance_ne := by decide

/-- A node is updated to stand for another database, and the index still maps the first one to it. -/
theorem updated_reference_stays_indexed : ¬ HoldsAlong step Sound new [.registerNode sampleNode,
      .updateNode "node-1" "tenant-1" { refId := some "db-2" }] := by
  intro h
  have hregistered := h.2 _ rfl
  obtain ⟨node, hnode, hkey⟩ := ((hregistered.2 _ rfl).start.indexExact
    ("tenant-1", "RESOURCE", "db-1") "node-1").mp (by decide)
  have hnode' := Option.some.inj hnode
  rw [← hnode'] at hkey
  exact absurd hkey (by decide)

end TopologyRegistry

end FabricTopology
